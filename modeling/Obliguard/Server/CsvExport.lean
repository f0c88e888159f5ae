import Obliguard.Lib.CodeUnits
import Obliguard.Lib.Csv
import Obliguard.Lib.JsNumber

/-!
# CSV exports

`csvField` and `toCsv` of `server/src/utils/csv.ts`, over texts of code units. `parse_toCsv` says that an RFC 4180
reader gets back the headers and the text of every cell, and that no text cell starts like a formula.
-/

namespace Obliguard.Server

open Csv

/-- A cell; a date is its time value, in milliseconds. -/
inductive CsvCell
  | text (s : JsText)
  | number (x : JsNumber)
  | boolean (b : Bool)
  | date (time : Option ℤ)
  /-- `null` or `undefined`. -/
  | absent

/-! ## Dates -/

/-- The last `width` digits of a number. -/
def padded (width n : Nat) : List Char :=
  List.replicate (width - (Nat.toDigits 10 n).length) '0' ++ Nat.toDigits 10 n

/-- Year, month and day of a day counted from 1970-01-01, in the calendar of the standard. -/
def civilOfDays (days : ℤ) : ℤ × Nat × Nat :=
  let z := days + 719468
  let era := z / 146097
  let doe := (z % 146097).toNat
  let yoe := (doe - doe / 1460 + doe / 36524 - doe / 146096) / 365
  let doy := doe - (365 * yoe + yoe / 4 - yoe / 100)
  let mp := (5 * doy + 2) / 153
  let month := if mp < 10 then mp + 3 else mp - 9
  (yoe + era * 400 + (if month ≤ 2 then 1 else 0), month, doy - (153 * mp + 2) / 5 + 1)

/-- `toISOString`. -/
def isoString (time : ℤ) : List Char :=
  let (year, month, day) := civilOfDays (time / 86400000)
  let ms := (time % 86400000).toNat
  let yearText :=
    if 0 ≤ year ∧ year ≤ 9999 then padded 4 year.toNat
    else (if year < 0 then '-' else '+') :: padded 6 year.natAbs
  yearText ++ '-' :: padded 2 month ++ '-' :: padded 2 day ++ 'T' :: padded 2 (ms / 3600000) ++
    ':' :: padded 2 (ms / 60000 % 60) ++ ':' :: padded 2 (ms / 1000 % 60) ++ '.' :: padded 3 (ms % 1000) ++ ['Z']

/-! ## Fields -/

/-- The delimiters of `toCsv`. -/
def csvAlphabet : Alphabet UInt16 where
  comma := unit ','
  quote := unit '"'
  cr := unit '\r'
  lf := unit '\n'
  nodup := by decide

/-- `/^[=+\-@\t\r]/`: a spreadsheet evaluates a field that starts so. -/
def isFormulaStart (u : UInt16) : Bool := ['=', '+', '-', '@', '\t', '\r'].any fun c => u == unit c

/-- The text with a leading quote where it starts like a formula. -/
def inert (s : JsText) : JsText := if s.head?.any isFormulaStart then unit '\'' :: s else s

/-- `/[",\r\n]/`: a field with such a character is quoted. -/
def isDelimiter (u : UInt16) : Bool := u == unit '"' || u == unit ',' || u == unit '\r' || u == unit '\n'

/-- Quoted where that is needed. -/
def quoteIfNeeded (s : JsText) : JsText :=
  if s.any isDelimiter then unit '"' :: (double csvAlphabet s ++ [unit '"']) else s

/-- `csvField`. -/
def csvField : CsvCell → JsText
  | .absent => []
  | .number (.finite x) => units (numberText x)
  | .number _ => []
  | .boolean b => if b then units "true".toList else units "false".toList
  | .date time => quoteIfNeeded (inert ((time.map fun t => units (isoString t)).getD []))
  | .text s => quoteIfNeeded (inert s)

/-- `toCsv`. -/
def toCsv (headers : List JsText) (rows : List (List CsvCell)) : JsText :=
  let lines := [unit ','].intercalate (headers.map fun h => csvField (.text h)) ::
    rows.map fun row => [unit ','].intercalate (row.map csvField)
  units ['\r', '\n'] |>.intercalate lines ++ units ['\r', '\n']

/-- What a cell says: its text, behind a quote where it starts like a formula. -/
def cellText : CsvCell → JsText
  | .text s => inert s
  | .date time => inert ((time.map fun t => units (isoString t)).getD [])
  | .number (.finite x) => units (numberText x)
  | .number _ => []
  | .boolean b => if b then units "true".toList else units "false".toList
  | .absent => []

/-! ## Spellings -/

theorem isPlain_of_isDelimiter {u : UInt16} (h : isDelimiter u = false) : csvAlphabet.IsPlain u := by
  simp only [isDelimiter, Bool.or_eq_false_iff, beq_eq_false_iff_ne] at h
  obtain ⟨⟨⟨hquote, hcomma⟩, hcr⟩, hlf⟩ := h
  exact ⟨hcomma, hquote, hcr, hlf⟩

theorem spelling_quoteIfNeeded (s : JsText) : Spelling csvAlphabet (quoteIfNeeded s) s := by
  rw [quoteIfNeeded]
  split
  · exact .inr rfl
  · rename_i hnone
    rw [Bool.not_eq_true, List.any_eq_false] at hnone
    exact .inl ⟨rfl, fun u hu => isPlain_of_isDelimiter (Bool.eq_false_iff.mpr (hnone u hu))⟩

theorem isPlain_numberChar {c : Char} (h : NumberChar c) : ∀ u ∈ charUnits c, csvAlphabet.IsPlain u := by
  have hcode : c.toNat ∈ [43, 45, 46, 48, 49, 50, 51, 52, 53, 54, 55, 56, 57, 101] := by
    rcases h with hdigit | hother
    · delta Char.isDigit at hdigit
      rw [Bool.and_eq_true, decide_eq_true_eq, decide_eq_true_eq] at hdigit
      have hlow : 48 ≤ c.toNat := hdigit.1
      have hhigh : c.toNat ≤ 57 := hdigit.2
      simp only [List.mem_cons, List.not_mem_nil, or_false]
      omega
    · have hall : (['+', '-', '.', 'e'].all fun d =>
          [43, 45, 46, 48, 49, 50, 51, 52, 53, 54, 55, 56, 57, 101].contains d.toNat) = true := by decide
      exact List.contains_iff_mem.mp (List.all_eq_true.mp hall c hother)
  have hplain : ∀ n ∈ [43, 45, 46, 48, 49, 50, 51, 52, 53, 54, 55, 56, 57, 101],
      n < 0x10000 ∧ isDelimiter (UInt16.ofNat n) = false := by decide
  obtain ⟨hlt, hnone⟩ := hplain c.toNat hcode
  intro u hu
  rw [charUnits_of_lt hlt] at hu
  rw [List.mem_singleton.mp hu]
  exact isPlain_of_isDelimiter hnone

theorem spelling_csvField (cell : CsvCell) : Spelling csvAlphabet (csvField cell) (cellText cell) := by
  cases cell with
  | text s => exact spelling_quoteIfNeeded _
  | date time => exact spelling_quoteIfNeeded _
  | absent => exact .inl ⟨rfl, by simp [cellText]⟩
  | boolean b =>
    have hnone : (cellText (.boolean b)).any isDelimiter = false := by
      cases b <;> decide
    rw [List.any_eq_false] at hnone
    exact .inl ⟨rfl, fun u hu => isPlain_of_isDelimiter (Bool.eq_false_iff.mpr (hnone u hu))⟩
  | number x =>
    cases x with
    | finite x =>
      refine .inl ⟨rfl, fun u hu => ?_⟩
      obtain ⟨c, hc, hu⟩ := mem_units hu
      exact isPlain_numberChar (numberChar_numberText x c hc) u hu
    | nan => exact .inl ⟨rfl, by simp [cellText]⟩
    | infinity negative => exact .inl ⟨rfl, by simp [cellText]⟩

theorem inert_head (s : JsText) : ∀ u ∈ (inert s).head?, isFormulaStart u = false := by
  intro u hu
  rw [inert] at hu
  split at hu
  · rw [List.head?_cons] at hu
    rw [← Option.some.inj hu]
    decide
  · rename_i hnone
    rw [hu, Option.any_some, Bool.not_eq_true] at hnone
    exact hnone

/-! ## Documents -/

theorem intercalate_concat_flatMap {sep : JsText} {lines : List JsText} (h : lines ≠ []) :
    sep.intercalate lines ++ sep = lines.flatMap (· ++ sep) := by
  induction lines with
  | nil => contradiction
  | cons l lines ih =>
    cases lines with
    | nil => simp
    | cons l' lines =>
      rw [List.intercalate_cons_cons, List.flatMap_cons, ← ih (List.cons_ne_nil l' lines)]
      simp only [List.append_assoc]

theorem toCsv_eq (headers : List JsText) (rows : List (List CsvCell)) :
    toCsv headers rows = document csvAlphabet csvField (headers.map CsvCell.text :: rows) := by
  rw [toCsv, intercalate_concat_flatMap (List.cons_ne_nil _ _), document, List.flatMap_cons, List.flatMap_cons,
    List.flatMap_map, recordText, List.map_map]
  rfl

/-- With at least one header and one cell in each row, an RFC 4180 reader gets the headers and the text of every cell,
and no header, text or date among them starts with a character that a spreadsheet evaluates. -/
theorem parse_toCsv (headers : List JsText) (rows : List (List CsvCell)) (hheaders : headers ≠ [])
    (hrows : ∀ row ∈ rows, row ≠ []) :
    Csv.parse csvAlphabet (toCsv headers rows) =
      some (headers.map (fun h => cellText (.text h)) :: rows.map (List.map cellText)) ∧
    (∀ s, ∀ u ∈ (cellText (.text s)).head?, isFormulaStart u = false) ∧
    ∀ time, ∀ u ∈ (cellText (.date time)).head?, isFormulaStart u = false := by
  refine ⟨?_, fun s => inert_head s, fun time => inert_head _⟩
  rw [toCsv_eq, parse_document (List.cons_ne_nil _ _) ?_ fun row _ cell _ => spelling_csvField cell, List.map_cons,
    List.map_map]
  · rfl
  · intro row hrow
    rcases List.mem_cons.mp hrow with rfl | hrow
    · simpa using hheaders
    · exact hrows row hrow

/-- A formula, a quote and a line break in one row. -/
theorem parse_toCsv_formula :
    Csv.parse csvAlphabet (toCsv [units "user".toList, units "log".toList]
        [[.text (units "=1+1".toList), .text (units "a\"b,\r\nc".toList)]]) =
      some [[units "user".toList, units "log".toList], [units "'=1+1".toList, units "a\"b,\r\nc".toList]] :=
  (parse_toCsv [units "user".toList, units "log".toList]
    [[.text (units "=1+1".toList), .text (units "a\"b,\r\nc".toList)]] (by decide) (by decide)).1

end Obliguard.Server
