import AsterNet.Lib.Numeral

/-!
# A strict reader of HTTP/1.1 requests

`read` takes one request off a stream: a request line of three parts with one space between them, field
lines until the empty line, and a body as long as `Content-Length` says.  A line ends with CR LF, and
neither byte stands anywhere else in it.  A line that begins with a blank, a blank before the colon, a
second `Host` or `Content-Length`, a transfer coding and a length that is not a number are refused.

`read_text` says that a well-formed message is read back from its text, whatever follows on the stream;
`of_read_text` what a message must be for the reader to take anything from its text.
-/

namespace RequestReader

open ByteString

/-- A field of a message. -/
structure Field where
  name : Bytes
  value : Bytes
  deriving DecidableEq, Repr

/-- A request. -/
structure Message where
  method : Bytes
  target : Bytes
  fields : List Field
  body : Bytes
  deriving DecidableEq, Repr

/-- A byte of a method or of a field's name. -/
def isTokenByte (c : UInt8) : Bool := isAlnum c || (ascii "!#$%&'*+-.^_`|~").contains c

/-- A nonempty token. -/
def isToken (s : Bytes) : Bool := !s.isEmpty && s.all isTokenByte

/-- A byte of a target: no blank, control or DEL. -/
def isTargetByte (c : UInt8) : Bool := !(c ≤ 0x20 || c == 0x7f)

/-- A byte of a field's value; controls other than these three are kept. -/
def isValueByte (c : UInt8) : Bool := c != 13 && c != 10 && c != 0

/-- The field is called so, in any letter case. -/
def Field.isNamed (name : String) (f : Field) : Bool := lower f.name == ascii name

/-! ### The reader -/

/-- The text before the first `c` and the text after it. -/
def splitAtByte (c : UInt8) (s : Bytes) : Option (Bytes × Bytes) :=
  if c ∈ s then some (s.takeWhile (· != c), (s.dropWhile (· != c)).tail) else none

/-- A byte that ends no line. -/
def isLineByte (c : UInt8) : Bool := c != 13 && c != 10

/-- The first line, and what follows its CR LF. -/
def readLine (s : Bytes) : Option (Bytes × Bytes) :=
  if crlf.isPrefixOf (s.dropWhile isLineByte) then
    some (s.takeWhile isLineByte, (s.dropWhile isLineByte).drop 2)
  else none

/-- `method SP target SP HTTP/1.1`. -/
def readRequestLine (line : Bytes) : Option (Bytes × Bytes) := do
  let first ← splitAtByte 32 line
  let second ← splitAtByte 32 first.2
  if isToken first.1 && !second.1.isEmpty && second.1.all isTargetByte && second.2 == ascii "HTTP/1.1" then
    some (first.1, second.1)
  else none

/-- `name: value`, without the blanks around the value. -/
def readField (line : Bytes) : Option Field := do
  let parts ← splitAtByte 58 line
  if isToken parts.1 && (trimBlanks parts.2).all isValueByte then
    some ⟨parts.1, trimBlanks parts.2⟩
  else none

/-- The field lines up to the empty line, at most `fuel` lines. -/
def readFields : ℕ → Bytes → Option (List Field × Bytes)
  | 0, _ => none
  | fuel + 1, s => do
    let line ← readLine s
    if line.1.isEmpty then some ([], line.2)
    else do
      let field ← readField line.1
      let rest ← readFields fuel line.2
      some (field :: rest.1, rest.2)

/-- The length of the body. -/
def bodyLength (fields : List Field) : Option ℕ :=
  if fields.any (Field.isNamed "transfer-encoding") then none
  else
    match fields.filter (Field.isNamed "content-length") with
    | [] => some 0
    | [f] => if !f.value.isEmpty && f.value.all isDigit then some (digitsValue 10 f.value) else none
    | _ :: _ :: _ => none

/-- One request, and what follows it. -/
def read (s : Bytes) : Option (Message × Bytes) := do
  let line ← readLine s
  let start ← readRequestLine line.1
  let head ← readFields line.2.length line.2
  let n ← bodyLength head.1
  if (head.1.filter (Field.isNamed "host")).length = 1 ∧ n ≤ head.2.length then
    some (⟨start.1, start.2, head.1, head.2.take n⟩, head.2.drop n)
  else none

/-! ### The text of a message -/

/-- The line of a field. -/
def Field.line (f : Field) : Bytes := f.name ++ ascii ": " ++ f.value

/-- The field without the blanks around its value. -/
def Field.trimmed (f : Field) : Field := { f with value := trimBlanks f.value }

namespace Message

variable (m : Message)

/-- The request line. -/
def requestLine : Bytes := m.method ++ ascii " " ++ m.target ++ ascii " HTTP/1.1"

/-- The text of the message. -/
def text : Bytes :=
  m.requestLine ++ crlf ++ m.fields.flatMap (fun f => f.line ++ crlf) ++ crlf ++ m.body

/-- The message without the blanks around its values. -/
def trimmed : Message := { m with fields := m.fields.map Field.trimmed }

/-- A message that says what it is. -/
structure WellFormed : Prop where
  method : isToken m.method = true
  target_ne : m.target ≠ []
  target : m.target.all isTargetByte = true
  names : ∀ f ∈ m.fields, isToken f.name = true
  values : ∀ f ∈ m.fields, f.value.all isValueByte = true
  host : (m.fields.filter (Field.isNamed "host")).length = 1
  /-- The fields announce the body. -/
  body : bodyLength m.trimmed.fields = some m.body.length

end Message

/-! ### Reading back -/

theorem isTokenByte_spec : ∀ c : UInt8, isTokenByte c = true →
    c ≠ 32 ∧ c ≠ 58 ∧ isLineByte c = true := by
  decide +kernel

theorem isTargetByte_spec : ∀ c : UInt8, isTargetByte c = true → c ≠ 32 ∧ isLineByte c = true := by
  decide +kernel

theorem isLineByte_of_isValueByte : ∀ c : UInt8, isValueByte c = true → isLineByte c = true := by
  decide +kernel

theorem splitAtByte_append {c : UInt8} {s t : Bytes} (h : c ∉ s) :
    splitAtByte c (s ++ c :: t) = some (s, t) := by
  have hall : ∀ x ∈ s, (x != c) = true := by
    intro x hx
    simpa using ne_of_mem_of_not_mem hx h
  unfold splitAtByte
  rw [if_pos (by simp), List.takeWhile_append_of_pos hall, List.dropWhile_append_of_pos hall]
  simp

theorem readLine_append {line : Bytes} (h : line.all isLineByte = true) (s : Bytes) :
    readLine (line ++ crlf ++ s) = some (line, s) := by
  have hall := List.all_eq_true.mp h
  unfold readLine
  rw [List.append_assoc, List.takeWhile_append_of_pos hall, List.dropWhile_append_of_pos hall]
  have hstop : (crlf ++ s).dropWhile isLineByte = crlf ++ s := by simp [crlf, isLineByte]
  have htake : (crlf ++ s).takeWhile isLineByte = [] := by simp [crlf, isLineByte]
  rw [hstop, htake, if_pos (by simp), List.append_nil]
  rfl

theorem isToken_iff {s : Bytes} : isToken s = true ↔ s ≠ [] ∧ ∀ c ∈ s, isTokenByte c = true := by
  unfold isToken
  rw [Bool.and_eq_true, List.all_eq_true, Bool.not_eq_true', List.isEmpty_eq_false_iff]

/-- A field whose name is a token is read from its line, unless its value has other bytes. -/
theorem readField_line {f : Field} (h : isToken f.name = true) :
    readField f.line = if (trimBlanks f.value).all isValueByte then some f.trimmed else none := by
  obtain ⟨-, hname⟩ := isToken_iff.mp h
  have hcolon : (58 : UInt8) ∉ f.name := fun hc => (isTokenByte_spec 58 (hname 58 hc)).2.1 rfl
  have hline : f.line = f.name ++ 58 :: (32 :: f.value) := by
    have hsep : ascii ": " = [58, 32] := by decide
    rw [Field.line, hsep, List.append_assoc]
    rfl
  have htrim : trimBlanks (32 :: f.value) = trimBlanks f.value := trimBlanks_cons_blank (by decide) _
  unfold readField
  rw [hline, splitAtByte_append hcolon]
  simp only [Option.bind_eq_bind, Option.bind_some, htrim, h, Bool.true_and]
  rfl

namespace Message.WellFormed

variable {m : Message}

theorem requestLine_all (h : m.WellFormed) : m.requestLine.all isLineByte = true := by
  have hmethod := (isToken_iff.mp h.method).2
  have htarget := List.all_eq_true.mp h.target
  rw [List.all_eq_true]
  intro c hc
  unfold requestLine at hc
  simp only [List.mem_append] at hc
  rcases hc with ((hc | hc) | hc) | hc
  · exact (isTokenByte_spec c (hmethod c hc)).2.2
  · exact (by decide +kernel : ∀ c ∈ ascii " ", isLineByte c = true) c hc
  · exact (isTargetByte_spec c (htarget c hc)).2
  · exact (by decide +kernel : ∀ c ∈ ascii " HTTP/1.1", isLineByte c = true) c hc

theorem readRequestLine (h : m.WellFormed) :
    RequestReader.readRequestLine m.requestLine = some (m.method, m.target) := by
  obtain ⟨hne, hmethod⟩ := isToken_iff.mp h.method
  have hspace : (32 : UInt8) ∉ m.method := fun hc => (isTokenByte_spec 32 (hmethod 32 hc)).1 rfl
  have hspace' : (32 : UInt8) ∉ m.target := fun hc =>
    (isTargetByte_spec 32 (List.all_eq_true.mp h.target 32 hc)).1 rfl
  have hline : m.requestLine = m.method ++ 32 :: (m.target ++ 32 :: ascii "HTTP/1.1") := by
    have hblank : ascii " " = [32] := by decide
    have hversion : ascii " HTTP/1.1" = 32 :: ascii "HTTP/1.1" := by decide
    rw [requestLine, hblank, hversion]
    simp only [List.append_assoc, List.cons_append, List.nil_append]
  unfold RequestReader.readRequestLine
  rw [hline]
  simp only [splitAtByte_append hspace, splitAtByte_append hspace', Option.bind_eq_bind,
    Option.bind_some]
  rw [if_pos]
  have htarget : m.target.isEmpty = false := List.isEmpty_eq_false_iff.mpr h.target_ne
  simp [h.method, htarget, h.target]

theorem line_all (h : m.WellFormed) {f : Field} (hf : f ∈ m.fields) : f.line.all isLineByte = true := by
  have hname := (isToken_iff.mp (h.names f hf)).2
  have hvalue := List.all_eq_true.mp (h.values f hf)
  rw [List.all_eq_true]
  intro c hc
  unfold Field.line at hc
  simp only [List.mem_append] at hc
  rcases hc with (hc | hc) | hc
  · exact (isTokenByte_spec c (hname c hc)).2.2
  · exact (by decide +kernel : ∀ c ∈ ascii ": ", isLineByte c = true) c hc
  · exact isLineByte_of_isValueByte c (hvalue c hc)

theorem readField (h : m.WellFormed) {f : Field} (hf : f ∈ m.fields) :
    RequestReader.readField f.line = some f.trimmed := by
  have hvalue : (trimBlanks f.value).all isValueByte = true := by
    rw [List.all_eq_true]
    intro c hc
    refine List.all_eq_true.mp (h.values f hf) c ?_
    exact (List.dropWhile_sublist _).subset ((List.rdropWhile_prefix _ _).sublist.subset hc)
  rw [readField_line (h.names f hf), if_pos hvalue]

end Message.WellFormed

/-- Field lines are read back up to the empty line. -/
theorem readFields_append {fields : List Field} (hline : ∀ f ∈ fields, f.line.all isLineByte = true)
    (hfield : ∀ f ∈ fields, readField f.line = some f.trimmed) (s : Bytes) {fuel : ℕ}
    (hfuel : fields.length < fuel) :
    readFields fuel (fields.flatMap (fun f => f.line ++ crlf) ++ crlf ++ s) =
      some (fields.map Field.trimmed, s) := by
  induction fields generalizing fuel with
  | nil =>
    obtain ⟨k, rfl⟩ := Nat.exists_eq_add_one_of_ne_zero (Nat.ne_of_gt hfuel)
    have hempty : readLine ([] ++ crlf ++ s) = some ([], s) := readLine_append rfl s
    simp only [readFields, List.flatMap_nil]
    rw [hempty]
    rfl
  | cons f fields ih =>
    obtain ⟨k, rfl⟩ := Nat.exists_eq_add_one_of_ne_zero (Nat.ne_of_gt (Nat.zero_lt_of_lt hfuel))
    have hrest := ih (fun f' hf' => hline f' (List.mem_cons_of_mem _ hf'))
      (fun f' hf' => hfield f' (List.mem_cons_of_mem _ hf')) (Nat.lt_of_succ_lt_succ hfuel)
    have hfirst := readLine_append (hline f List.mem_cons_self)
      (fields.flatMap (fun f => f.line ++ crlf) ++ crlf ++ s)
    have hne : f.line.isEmpty = false := by
      simp [Field.line, ascii]
    unfold readFields
    rw [List.flatMap_cons, List.append_assoc, List.append_assoc, ← List.append_assoc _ crlf s, hfirst]
    simp only [Option.bind_eq_bind, Option.bind_some, hne, Bool.false_eq_true, if_false,
      hfield f List.mem_cons_self, hrest, List.map_cons]

/-- The empty line ends the fields before the text does. -/
theorem length_lt_length_flatMap (fields : List Field) (s : Bytes) :
    fields.length < (fields.flatMap (fun f => f.line ++ crlf) ++ crlf ++ s).length := by
  induction fields with
  | nil => simp [crlf]
  | cons f fields ih =>
    rw [List.flatMap_cons]
    simp only [List.append_assoc, List.length_append, List.length_cons] at ih ⊢
    have hcrlf : crlf.length = 2 := rfl
    omega

/-- **A well-formed message is read back from its text**, whatever follows. -/
theorem read_text {m : Message} (h : m.WellFormed) (s : Bytes) :
    read (m.text ++ s) = some (m.trimmed, s) := by
  have hline := readLine_append h.requestLine_all
    (m.fields.flatMap (fun f => f.line ++ crlf) ++ crlf ++ (m.body ++ s))
  have htext : m.text ++ s =
      m.requestLine ++ crlf ++ (m.fields.flatMap (fun f => f.line ++ crlf) ++ crlf ++ (m.body ++ s)) := by
    simp only [Message.text, List.append_assoc]
  have hfields := readFields_append (fun f hf => h.line_all hf) (fun f hf => h.readField hf) (m.body ++ s)
    (length_lt_length_flatMap m.fields (m.body ++ s))
  have hhost : ((m.fields.map Field.trimmed).filter (Field.isNamed "host")).length = 1 := by
    rw [List.filter_map, List.length_map]
    exact h.host
  have hbody : bodyLength (m.fields.map Field.trimmed) = some m.body.length := h.body
  unfold read
  rw [htext, hline]
  simp only [Option.bind_eq_bind, Option.bind_some, h.readRequestLine, hfields, hbody]
  rw [if_pos ⟨hhost, by simp⟩, List.take_left, List.drop_left]
  rfl

/-! ### What is read at all -/

/-- Field lines that are read have values without other bytes. -/
theorem values_of_readFields {fields : List Field} (hline : ∀ f ∈ fields, f.line.all isLineByte = true)
    (hname : ∀ f ∈ fields, isToken f.name = true) {s : Bytes} {fuel : ℕ} {result : List Field × Bytes}
    (h : readFields fuel (fields.flatMap (fun f => f.line ++ crlf) ++ crlf ++ s) = some result) :
    ∀ f ∈ fields, (trimBlanks f.value).all isValueByte = true := by
  induction fields generalizing fuel result with
  | nil => simp
  | cons f fields ih =>
    cases fuel with
    | zero => cases h
    | succ fuel =>
      have hfirst := readLine_append (hline f List.mem_cons_self)
        (fields.flatMap (fun f => f.line ++ crlf) ++ crlf ++ s)
      have hne : f.line.isEmpty = false := by
        simp [Field.line, ascii]
      unfold readFields at h
      rw [List.flatMap_cons, List.append_assoc, List.append_assoc, ← List.append_assoc _ crlf s, hfirst] at h
      simp only [Option.bind_eq_bind, Option.bind_some, hne, Bool.false_eq_true, if_false,
        readField_line (hname f List.mem_cons_self)] at h
      split_ifs at h with hvalue
      · rw [Option.bind_some, Option.bind_eq_some_iff] at h
        obtain ⟨rest, hrest, -⟩ := h
        intro f' hf'
        rcases List.mem_cons.mp hf' with rfl | hf'
        · exact hvalue
        · exact ih (fun g hg => hline g (List.mem_cons_of_mem _ hg))
            (fun g hg => hname g (List.mem_cons_of_mem _ hg)) hrest f' hf'
      · cases h

/-- **What a reader takes from the lines of a message.** -/
theorem of_read_text {m m' : Message} {rest : Bytes} (hstart : m.requestLine.all isLineByte = true)
    (hline : ∀ f ∈ m.fields, f.line.all isLineByte = true) (hname : ∀ f ∈ m.fields, isToken f.name = true)
    (h : read m.text = some (m', rest)) :
    isToken m'.method = true ∧ m'.target ≠ [] ∧ m'.target.all isTargetByte = true ∧
      m'.fields = m.trimmed.fields ∧ ∀ f ∈ m.fields, (trimBlanks f.value).all isValueByte = true := by
  have htext : m.text =
      m.requestLine ++ crlf ++ (m.fields.flatMap (fun f => f.line ++ crlf) ++ crlf ++ m.body) := by
    simp only [Message.text, List.append_assoc]
  unfold read at h
  rw [htext, readLine_append hstart] at h
  simp only [Option.bind_eq_bind, Option.bind_some, Option.bind_eq_some_iff] at h
  obtain ⟨start, hstart', head, hhead, n, -, h⟩ := h
  split_ifs at h
  obtain ⟨rfl, -⟩ := Prod.mk.inj (Option.some.inj h)
  have hvalues := values_of_readFields hline hname hhead
  have hfields := readFields_append hline (fun f hf => by rw [readField_line (hname f hf), if_pos (hvalues f hf)])
    m.body (length_lt_length_flatMap m.fields m.body)
  rw [hhead] at hfields
  unfold readRequestLine at hstart'
  simp only [Option.bind_eq_bind, Option.bind_eq_some_iff] at hstart'
  obtain ⟨first, -, second, -, hstart'⟩ := hstart'
  split_ifs at hstart' with hok
  obtain rfl := Option.some.inj hstart'
  simp only [Bool.and_eq_true, Bool.not_eq_true', List.isEmpty_eq_false_iff] at hok
  obtain ⟨⟨⟨hmethod, htarget⟩, hall⟩, -⟩ := hok
  exact ⟨hmethod, htarget, hall, congrArg Prod.fst (Option.some.inj hfields), hvalues⟩

end RequestReader
