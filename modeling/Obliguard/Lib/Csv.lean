import Mathlib.Data.List.Nodup
import Mathlib.Tactic.Common

/-!
# Comma-separated values

The reader of RFC 4180 over an arbitrary alphabet with its four delimiters: records of fields, a field being plain, or
quoted with its quotes doubled. A line break ends a record, so that the one at the end of a text starts none.
`parse_document` reads back what is written field by field, whichever spelling each field has.
-/

namespace Obliguard.Csv

variable {α : Type} [DecidableEq α]

/-- The delimiters. -/
structure Alphabet (α : Type) where
  comma : α
  quote : α
  cr : α
  lf : α
  nodup : [comma, quote, cr, lf].Nodup

/-- Where the reader is in a field. -/
inductive Mode
  | start
  | plain
  | quoted
  /-- Behind a quote of a quoted field. -/
  | closing
  /-- Behind the first character of a line break. -/
  | lineEnd
deriving DecidableEq

/-- The records and the fields of the current record so far, and the current field. -/
structure State (α : Type) where
  records : List (List (List α))
  record : List (List α)
  field : List α
  mode : Mode

/-- A field may end here. -/
def Mode.ends (m : Mode) : Bool := m == .start || m == .plain || m == .closing

section parse
variable (a : Alphabet α)

def State.step (s : State α) (c : α) : Option (State α) :=
  match s.mode with
  | .quoted =>
    if c = a.quote then some { s with mode := .closing } else some { s with field := s.field ++ [c] }
  | .lineEnd => if c = a.lf then some ⟨s.records ++ [s.record ++ [s.field]], [], [], .start⟩ else none
  | mode =>
    if c = a.comma then some ⟨s.records, s.record ++ [s.field], [], .start⟩
    else if c = a.cr then some { s with mode := .lineEnd }
    else if c = a.lf then none
    else if c = a.quote then
      match mode with
      | .start => some { s with mode := .quoted }
      | .closing => some { s with field := s.field ++ [c], mode := .quoted }
      | _ => none
    else
      match mode with
      | .closing => none
      | _ => some { s with field := s.field ++ [c], mode := .plain }

/-- The records, at the end of the text. -/
def State.finish (s : State α) : Option (List (List (List α))) :=
  if s.mode = .start ∧ s.record = [] ∧ s.records ≠ [] then some s.records
  else if s.mode.ends then some (s.records ++ [s.record ++ [s.field]])
  else none

/-- The records of a text. -/
def parse (text : List α) : Option (List (List (List α))) :=
  (text.foldlM (State.step a) ⟨[], [], [], .start⟩).bind State.finish

/-- A character of a plain field. -/
def Alphabet.IsPlain (c : α) : Prop := c ≠ a.comma ∧ c ≠ a.quote ∧ c ≠ a.cr ∧ c ≠ a.lf

/-- The quotes doubled. -/
def double (f : List α) : List α := f.flatMap fun c => if c = a.quote then [c, c] else [c]

/-- A spelling of a field. -/
def Spelling (t f : List α) : Prop := (t = f ∧ ∀ c ∈ f, a.IsPlain c) ∨ t = a.quote :: (double a f ++ [a.quote])

/-- Fields separated by commas. -/
def recordText {ι : Type} (enc : ι → List α) (r : List ι) : List α := [a.comma].intercalate (r.map enc)

/-- Records, each with its line break. -/
def document {ι : Type} (enc : ι → List α) (rows : List (List ι)) : List α :=
  rows.flatMap fun r => recordText a enc r ++ [a.cr, a.lf]

end parse

/-! ## Reading a spelling -/

section read
variable {a : Alphabet α} {records : List (List (List α))} {record : List (List α)} {field f t : List α} {mode : Mode}

omit [DecidableEq α] in
theorem Alphabet.distinct (a : Alphabet α) :
    a.quote ≠ a.comma ∧ a.quote ≠ a.cr ∧ a.quote ≠ a.lf ∧ a.cr ≠ a.comma := by
  have h := a.nodup
  simp only [List.nodup_cons, List.mem_cons] at h
  tauto

theorem step_plain {c : α} (hc : a.IsPlain c) (hmode : mode = .start ∨ mode = .plain) :
    State.step a ⟨records, record, field, mode⟩ c = some ⟨records, record, field ++ [c], .plain⟩ := by
  obtain ⟨hcomma, hquote, hcr, hlf⟩ := hc
  rcases hmode with rfl | rfl <;> simp [State.step, hcomma, hquote, hcr, hlf]

theorem read_plain (field : List α) (hf : ∀ c ∈ f, a.IsPlain c) (hmode : mode = .start ∨ mode = .plain) :
    ∃ mode', f.foldlM (State.step a) ⟨records, record, field, mode⟩ = some ⟨records, record, field ++ f, mode'⟩ ∧
      (mode' = .start ∨ mode' = .plain) := by
  induction f generalizing field mode with
  | nil => exact ⟨mode, by rw [List.append_nil]; rfl, hmode⟩
  | cons c f ih =>
    obtain ⟨hc, hf⟩ := List.forall_mem_cons.mp hf
    obtain ⟨mode', hread, hmode'⟩ := ih (field ++ [c]) hf (.inr rfl)
    refine ⟨mode', ?_, hmode'⟩
    rw [List.foldlM_cons, step_plain hc hmode]
    rw [List.append_assoc] at hread
    exact hread

theorem read_double : (double a f).foldlM (State.step a) ⟨records, record, field, .quoted⟩ =
    some ⟨records, record, field ++ f, .quoted⟩ := by
  induction f generalizing field with
  | nil => rw [List.append_nil]; rfl
  | cons c f ih =>
    have hstep : (if c = a.quote then [c, c] else [c]).foldlM (State.step a) ⟨records, record, field, .quoted⟩ =
        some ⟨records, record, field ++ [c], .quoted⟩ := by
      by_cases hc : c = a.quote
      · rw [if_pos hc, hc]
        simp [State.step, a.distinct]
      · rw [if_neg hc]
        simp [State.step, hc]
    rw [double, List.flatMap_cons, List.foldlM_append, hstep]
    show (double a f).foldlM (State.step a) ⟨records, record, field ++ [c], .quoted⟩ = _
    rw [ih, List.append_assoc]
    rfl

theorem read_spelling (records : List (List (List α))) (record : List (List α)) (h : Spelling a t f) : ∃ mode,
    t.foldlM (State.step a) ⟨records, record, [], .start⟩ = some ⟨records, record, f, mode⟩ ∧ mode.ends = true := by
  rcases h with ⟨rfl, hplain⟩ | rfl
  · obtain ⟨mode, hread, rfl | rfl⟩ := read_plain [] hplain (.inl rfl)
    · exact ⟨_, hread, rfl⟩
    · exact ⟨_, hread, rfl⟩
  · refine ⟨.closing, ?_, rfl⟩
    have hopen : State.step a ⟨records, record, [], .start⟩ a.quote = some ⟨records, record, [], .quoted⟩ := by
      simp [State.step, a.distinct]
    rw [List.foldlM_cons, hopen]
    show (double a f ++ [a.quote]).foldlM (State.step a) ⟨records, record, [], .quoted⟩ = _
    rw [List.foldlM_append, read_double]
    simp [State.step]

theorem step_comma (hmode : mode.ends = true) :
    State.step a ⟨records, record, field, mode⟩ a.comma = some ⟨records, record ++ [field], [], .start⟩ := by
  cases mode <;> first | contradiction | simp [State.step]

theorem read_lineEnd (hmode : mode.ends = true) : [a.cr, a.lf].foldlM (State.step a) ⟨records, record, field, mode⟩ =
    some ⟨records ++ [record ++ [field]], [], [], .start⟩ := by
  cases mode <;> first | contradiction | simp [State.step, a.distinct]

/-! ## Reading a document -/

variable {ι : Type} {enc val : ι → List α}

/-- Reading the text of a record, up to its last field. -/
theorem read_recordText (records : List (List (List α))) (record : List (List α)) {r : List ι} (hr : r ≠ [])
    (h : ∀ x ∈ r, Spelling a (enc x) (val x)) :
    ∃ pre last mode, record ++ r.map val = pre ++ [last] ∧ mode.ends = true ∧
      (recordText a enc r).foldlM (State.step a) ⟨records, record, [], .start⟩ = some ⟨records, pre, last, mode⟩ := by
  induction r generalizing record with
  | nil => contradiction
  | cons x r ih =>
    obtain ⟨hx, hrest⟩ := List.forall_mem_cons.mp h
    obtain ⟨mode, hread, hmode⟩ := read_spelling records record hx
    cases r with
    | nil => exact ⟨record, val x, mode, rfl, hmode, by simpa [recordText] using hread⟩
    | cons y r =>
      obtain ⟨pre, last, mode', hsplit, hmode', hread'⟩ :=
        ih (record ++ [val x]) (List.cons_ne_nil y r) hrest
      refine ⟨pre, last, mode', ?_, hmode', ?_⟩
      · rw [← hsplit, List.append_assoc]
        rfl
      · have htext : recordText a enc (x :: y :: r) = enc x ++ a.comma :: recordText a enc (y :: r) := by
          rw [recordText, recordText, List.map_cons, List.map_cons, List.intercalate_cons_cons, List.append_assoc]
          rfl
        rw [htext, List.foldlM_append, hread]
        show List.foldlM (State.step a) _ (a.comma :: recordText a enc (y :: r)) = _
        rw [List.foldlM_cons, step_comma hmode]
        exact hread'

theorem read_document {rows : List (List ι)} (hrows : ∀ r ∈ rows, r ≠ [])
    (h : ∀ r ∈ rows, ∀ x ∈ r, Spelling a (enc x) (val x)) :
    (document a enc rows).foldlM (State.step a) ⟨records, [], [], .start⟩ =
      some ⟨records ++ rows.map (List.map val), [], [], .start⟩ := by
  induction rows generalizing records with
  | nil => rw [List.map_nil, List.append_nil]; rfl
  | cons r rows ih =>
    obtain ⟨hr, hrows⟩ := List.forall_mem_cons.mp hrows
    obtain ⟨hx, h⟩ := List.forall_mem_cons.mp h
    obtain ⟨pre, last, mode, hsplit, hmode, hread⟩ := read_recordText records [] hr hx
    rw [document, List.flatMap_cons, List.append_assoc, List.foldlM_append, hread]
    show List.foldlM (State.step a) _ ([a.cr, a.lf] ++ document a enc rows) = _
    rw [List.foldlM_append, read_lineEnd hmode]
    show List.foldlM (State.step a) _ (document a enc rows) = _
    rw [ih hrows h, ← hsplit, List.nil_append, List.append_assoc]
    rfl

/-- What is written is read back. -/
theorem parse_document {rows : List (List ι)} (hne : rows ≠ []) (hrows : ∀ r ∈ rows, r ≠ [])
    (h : ∀ r ∈ rows, ∀ x ∈ r, Spelling a (enc x) (val x)) :
    parse a (document a enc rows) = some (rows.map (List.map val)) := by
  rw [parse, read_document hrows h, Option.bind_some, List.nil_append, State.finish, if_pos]
  exact ⟨rfl, rfl, by simpa using hne⟩

end read

end Obliguard.Csv
