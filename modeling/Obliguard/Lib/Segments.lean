import Mathlib.Data.List.Basic
import Mathlib.Tactic.Common

/-!
# Reading a row of tokens piece by piece

`words` cuts a line at its spaces. A reader takes a row of tokens to a list and a final value. `Segment read tokens out`
says that it reads `tokens`, with whatever follows them, as `out` before the rest. Segments are put together with
`Segment.append`, and `Segment.read_end` reads the whole row.
-/

namespace Obliguard

/-- The pieces of a line between its spaces. -/
def words (line : String) : List String := (line.toList.splitOn ' ').map String.ofList

theorem words_intercalate {tokens : List String} (hne : tokens ≠ []) (h : ∀ t ∈ tokens, ' ' ∉ t.toList) :
    words (" ".intercalate tokens) = tokens := by
  have hchars : ∀ cs ∈ tokens.map String.toList, ' ' ∉ cs := by
    intro cs hcs
    obtain ⟨t, ht, rfl⟩ := List.mem_map.mp hcs
    exact h t ht
  rw [words, String.toList_intercalate]
  show (List.splitOn ' ' (List.intercalate [' '] _)).map String.ofList = tokens
  rw [List.splitOn_intercalate ' ' hchars (mt List.map_eq_nil_iff.mp hne), List.map_map]
  calc tokens.map (String.ofList ∘ String.toList) = tokens.map id :=
        List.map_congr_left fun t _ => String.ofList_toList
    _ = tokens := List.map_id tokens

variable {τ β γ α : Type} {read : List τ → Option (List β × γ)} {tokens tokens' : List τ} {out out' : List β}

/-- The reader reads the tokens as the list, whatever follows. -/
def Segment (read : List τ → Option (List β × γ)) (tokens : List τ) (out : List β) : Prop :=
  ∀ rest ≠ [], read (tokens ++ rest) = (read rest).map fun r => (out ++ r.1, r.2)

namespace Segment

theorem nil : Segment read [] [] := fun rest _ => by
  show read rest = _
  cases read rest with
  | none => rfl
  | some r => rfl

theorem append (h : Segment read tokens out) (h' : Segment read tokens' out') :
    Segment read (tokens ++ tokens') (out ++ out') := by
  intro rest hrest
  rw [List.append_assoc, h _ (List.append_ne_nil_of_right_ne_nil tokens' hrest), h' rest hrest]
  cases read rest with
  | none => rfl
  | some r =>
    rw [Option.map_some, Option.map_some, Option.map_some, List.append_assoc]

theorem optional {o : Option α} {f : α → List τ} {g : α → List β} (h : ∀ a ∈ o, Segment read (f a) (g a)) :
    Segment read (o.elim [] f) (o.elim [] g) := by
  cases o with
  | none => exact nil
  | some a => exact h a rfl

theorem read_end {tail : List τ} {c : γ} (h : Segment read tokens out) (hend : read tail = some ([], c))
    (hne : tail ≠ []) : read (tokens ++ tail) = some (out, c) := by
  rw [h tail hne, hend, Option.map_some, List.append_nil]

end Segment

end Obliguard
