import InverseArena.Library.Utf8

/-!
# Event streams

The format `text/event-stream`, as a browser reads it: lines that end in a line feed, a carriage
return or both, the fields `event` and `data`, and a message at each empty line. The text is read
unit by unit, as it arrives. The fields `id` and `retry` are no part of a message and are passed
over like unknown ones.

Results:
* `read_append`, `messages_prefix`: a stream may arrive in pieces; a part of it gives the first
  messages.
* `messages_blocks`: blocks of a type and a line of data are read back, whatever the data are.
-/

namespace EventStream

/-- `\n`. -/
def LF : ℕ := 0x0A

/-- `\r`. -/
def CR : ℕ := 0x0D

def colon : ℕ := 0x3A

def space : ℕ := 0x20

/-- A message that is dispatched. -/
structure Message where
  type : Text
  data : Text
  deriving DecidableEq, Repr

/-- What has been read: the line so far, whether a line feed now would belong to the line end
    before it, and the two buffers. -/
structure Reader where
  line : Text
  afterCR : Bool
  type : Text
  data : Text
  deriving DecidableEq, Repr

namespace Reader

/-- Between messages. -/
def fresh : Reader := ⟨[], false, [], []⟩

/-- The name and the value of a field; a space after the colon is no part of the value. -/
def field (line : Text) : Text × Text :=
  match line.dropWhile (· ≠ colon) with
  | [] => (line, [])
  | _ :: value => (line.takeWhile (· ≠ colon),
      if value.head? = some space then value.drop 1 else value)

/-- Processes a field. -/
def setField (r : Reader) (name value : Text) : Reader :=
  if name = Text.ofString "event" then { r with type := value }
  else if name = Text.ofString "data" then { r with data := r.data ++ value ++ [LF] }
  else r

/-- Dispatches the message, if there are any data; the last line feed is no part of them. -/
def dispatch (r : Reader) : List Message :=
  if r.data = [] then []
  else [⟨if r.type = [] then Text.ofString "message" else r.type, r.data.dropLast⟩]

/-- The end of a line. -/
def endLine (r : Reader) : Reader × List Message :=
  if r.line = [] then ({ r with type := [], data := [] }, r.dispatch)
  else if r.line.head? = some colon then ({ r with line := [] }, [])
  else ({ r.setField (field r.line).1 (field r.line).2 with line := [] }, [])

/-- Reads a unit. -/
def feed (r : Reader) (c : ℕ) : Reader × List Message :=
  if c = LF then
    if r.afterCR then ({ r with afterCR := false }, []) else r.endLine
  else if c = CR then ({ r.endLine.1 with afterCR := true }, r.endLine.2)
  else ({ r with line := r.line ++ [c], afterCR := false }, [])

/-- Reads a text, and gives the messages dispatched. -/
def read : Reader → Text → Reader × List Message
  | r, [] => (r, [])
  | r, c :: cs => ((read (r.feed c).1 cs).1, (r.feed c).2 ++ (read (r.feed c).1 cs).2)

end Reader

/-- The messages of a stream; a byte order mark may stand before it. -/
def messages (cs : Text) : List Message :=
  (Reader.fresh.read (if cs.head? = some 0xFEFF then cs.drop 1 else cs)).2

/-- A block of a message, as it is written. -/
def block (type data : Text) : Text :=
  Text.ofString "event: " ++ type ++ [LF] ++ (Text.ofString "data: " ++ data ++ [LF, LF])

/-! ## Reading in pieces -/

namespace Reader

variable {r : Reader} {c : ℕ} {cs ds line value type data : Text}

theorem read_append (r : Reader) (cs ds : Text) : r.read (cs ++ ds) =
    (((r.read cs).1.read ds).1, (r.read cs).2 ++ ((r.read cs).1.read ds).2) := by
  induction cs generalizing r with
  | nil => rfl
  | cons c cs ih => simp only [List.cons_append, read, ih, List.append_assoc]

/-- What is read first is dispatched first. -/
theorem read_prefix (h : cs <+: ds) : (r.read cs).2 <+: (r.read ds).2 := by
  obtain ⟨more, rfl⟩ := h
  rw [read_append]
  exact List.prefix_append _ _

/-! ## Lines -/

/-- A unit that does not end a line. -/
def IsInner (c : ℕ) : Prop := c ≠ LF ∧ c ≠ CR

instance (c : ℕ) : Decidable (IsInner c) := inferInstanceAs (Decidable (_ ∧ _))

theorem feed_inner (hc : IsInner c) :
    r.feed c = ({ r with line := r.line ++ [c], afterCR := false }, []) := by
  rw [feed, if_neg hc.1, if_neg hc.2]

theorem read_inner (h : ∀ c ∈ cs, IsInner c) (hr : r.afterCR = false) :
    r.read cs = ({ r with line := r.line ++ cs }, []) := by
  induction cs generalizing r with
  | nil => simp [read]
  | cons c cs ih =>
    rw [read, feed_inner (h c List.mem_cons_self)]
    have hrest := ih (r := { r with line := r.line ++ [c], afterCR := false })
      (fun d hd => h d (List.mem_cons_of_mem _ hd)) rfl
    rw [hrest]
    simp [hr]

/-- A line with its end. -/
theorem read_line (h : ∀ c ∈ line, IsInner c) (hr : r.afterCR = false) (hline : r.line = []) :
    r.read (line ++ [LF]) = { r with line := line }.endLine := by
  rw [read_append, read_inner h hr, hline, List.nil_append]
  simp [read, feed, hr]

/-- A line that sets a field, whose name is neither empty nor has a colon. -/
theorem field_line {name : Text} (hname : ∀ c ∈ name, c ≠ colon) :
    field (name ++ [colon, space] ++ value) = (name, value) := by
  have htake : (name ++ [colon, space] ++ value).takeWhile (· ≠ colon) = name := by
    rw [List.append_assoc, List.takeWhile_append_of_pos (by simpa using hname)]
    simp [colon]
  have hdrop : (name ++ [colon, space] ++ value).dropWhile (· ≠ colon) =
      colon :: space :: value := by
    rw [List.append_assoc, List.dropWhile_append_of_pos (by simpa using hname)]
    simp [colon]
  unfold field
  rw [htake, hdrop]
  rfl

/-- A line that sets a field, with its end. -/
theorem read_field (name : Text) (hne : name ≠ []) (hname : ∀ c ∈ name, IsInner c ∧ c ≠ colon)
    (hvalue : ∀ c ∈ value, IsInner c) (hr : r.afterCR = false) (hline : r.line = []) :
    r.read (name ++ [colon, space] ++ value ++ [LF]) = (r.setField name value, []) := by
  have hinner : ∀ c ∈ name ++ [colon, space] ++ value, IsInner c := by
    intro c hc
    simp only [List.mem_append, List.mem_cons, List.not_mem_nil, or_false] at hc
    rcases hc with (hc | rfl | rfl) | hc
    · exact (hname c hc).1
    · exact ⟨by decide, by decide⟩
    · exact ⟨by decide, by decide⟩
    · exact hvalue c hc
  have hhead : (name ++ [colon, space] ++ value).head? ≠ some colon := by
    obtain ⟨c, cs, rfl⟩ := List.exists_cons_of_ne_nil hne
    simpa using (hname c List.mem_cons_self).2
  rw [read_line hinner hr hline, endLine, if_neg (by simp), if_neg hhead,
    field_line fun c hc => (hname c hc).2]
  obtain ⟨line, afterCR, type, data⟩ := r
  obtain rfl : line = [] := hline
  refine Prod.ext ?_ rfl
  unfold setField
  split_ifs <;> rfl

/-- A block is read as its message. -/
theorem read_block (htype : ∀ c ∈ type, IsInner c) (hdata : ∀ c ∈ data, IsInner c)
    (hne : type ≠ []) : fresh.read (block type data) = (fresh, [⟨type, data⟩]) := by
  have hevent : fresh.read (Text.ofString "event: " ++ type ++ [LF]) =
      ({ fresh with type := type }, []) :=
    read_field (Text.ofString "event") (by decide) (by decide) htype rfl rfl
  have hblock : ({ fresh with type := type } : Reader).read
      (Text.ofString "data: " ++ data ++ [LF]) =
      ({ fresh with type := type, data := data ++ [LF] }, []) :=
    read_field (Text.ofString "data") (by decide) (by decide) hdata rfl rfl
  have hend : ({ fresh with type := type, data := data ++ [LF] } : Reader).read [LF] =
      (fresh, [⟨type, data⟩]) := by
    simp [read, feed, endLine, dispatch, fresh, hne]
  have hsplit : block type data = Text.ofString "event: " ++ type ++ [LF] ++
      (Text.ofString "data: " ++ data ++ [LF] ++ [LF]) := by simp [block]
  rw [hsplit, read_append, hevent, read_append, hblock, hend]
  rfl

/-- Blocks are read as their messages. -/
theorem read_blocks {l : List Message}
    (h : ∀ m ∈ l, m.type ≠ [] ∧ (∀ c ∈ m.type, IsInner c) ∧ ∀ c ∈ m.data, IsInner c) :
    fresh.read (l.flatMap fun m => block m.type m.data) = (fresh, l) := by
  induction l with
  | nil => rfl
  | cons m l ih =>
    obtain ⟨hne, htype, hdata⟩ := h m List.mem_cons_self
    rw [List.flatMap_cons, read_append, read_block htype hdata hne,
      ih fun m' hm' => h m' (List.mem_cons_of_mem _ hm')]
    rfl

end Reader

/-! ## Streams -/

/-- What can be written as blocks: types that are not empty, and no line breaks. -/
def Plain (m : Message) : Prop :=
  m.type ≠ [] ∧ (∀ c ∈ m.type, Reader.IsInner c) ∧ ∀ c ∈ m.data, Reader.IsInner c

/-- A stream of blocks. -/
def blocks (l : List Message) : Text := l.flatMap fun m => block m.type m.data

theorem head_blocks (l : List Message) : (blocks l).head? ≠ some 0xFEFF := by
  cases l with
  | nil => simp [blocks]
  | cons m l =>
    have hhead : (blocks (m :: l)).head? = some 0x65 := rfl
    rw [hhead]
    decide

/-- The messages of blocks are read back. -/
theorem messages_blocks {l : List Message} (h : ∀ m ∈ l, Plain m) : messages (blocks l) = l := by
  unfold messages
  rw [if_neg (head_blocks l), blocks, Reader.read_blocks h]

/-- A part of a stream gives the first messages. -/
theorem messages_prefix {cs ds : Text} (h : cs <+: ds) : messages cs <+: messages ds := by
  unfold messages
  obtain ⟨more, rfl⟩ := h
  cases cs with
  | nil => exact List.nil_prefix
  | cons c cs =>
    simp only [List.cons_append, List.head?_cons, List.drop_succ_cons, List.drop_zero]
    split_ifs
    · exact Reader.read_prefix (List.prefix_append _ _)
    · exact Reader.read_prefix (List.prefix_append _ _)

/-- An incomplete code point at the end of what has arrived makes no message. -/
theorem messages_replaced (cs : Text) : messages (cs ++ [0xFFFD]) = messages cs := by
  have hlast : ∀ r : Reader, ∀ cs : Text, (r.read (cs ++ [0xFFFD])).2 = (r.read cs).2 := by
    intro r cs
    rw [Reader.read_append]
    exact (List.append_nil _)
  unfold messages
  cases cs with
  | nil => rfl
  | cons c cs =>
    simp only [List.cons_append, List.head?_cons, List.drop_succ_cons, List.drop_zero]
    split_ifs
    · exact hlast _ cs
    · exact hlast _ (c :: cs)

/-- What has arrived of blocks, in bytes, gives the first of their messages. -/
theorem messages_arrived {l : List Message} (h : ∀ m ∈ l, Plain m)
    (hwell : Text.WellFormed (blocks l)) {bs : List ℕ}
    (hbs : bs <+: Buffers.utf8Encode (blocks l)) : messages (Buffers.utf8Decode bs) <+: l := by
  obtain ⟨read, hread, hdecoded⟩ := Buffers.utf8Decode_prefix hbs
  rw [Buffers.utf8_roundTrip hwell] at hread
  have hsame : messages (Buffers.utf8Decode bs) = messages read := by
    rcases hdecoded with hd | hd
    · rw [hd]
    · rw [hd, messages_replaced]
  have hfirst := messages_prefix hread
  rwa [← hsame, messages_blocks h] at hfirst

/-- All of the bytes give all of the messages. -/
theorem messages_sent {l : List Message} (h : ∀ m ∈ l, Plain m)
    (hwell : Text.WellFormed (blocks l)) :
    messages (Buffers.utf8Decode (Buffers.utf8Encode (blocks l))) = l := by
  rw [Buffers.utf8_roundTrip hwell, messages_blocks h]

end EventStream
