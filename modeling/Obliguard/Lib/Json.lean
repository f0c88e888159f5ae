import Obliguard.Lib.CodeUnits
import Obliguard.Lib.JsNumber
import Obliguard.Lib.Numeral

/-!
# JSON

`JSON.parse` and `JSON.stringify`. A text that stands for a value does so whatever follows it: `Writes t v`. There is
one rule for each way a value is written (`writes_null`, `writes_nat`, `writes_array`, `writes_object`), and a text
that writes a value parses to it (`parse_of_writes`).
-/

namespace Obliguard

open Numeral

/-- A value of JSON; an object has its fields in the order of the text. -/
inductive Json
  | null
  | bool (b : Bool)
  | number (x : JsNumber)
  | string (s : JsText)
  | array (items : List Json)
  | object (fields : List (JsText × Json))

namespace Json

/-- The value of a key: of several fields the last one. -/
def get (fields : List (JsText × Json)) (key : JsText) : Option Json :=
  (fields.reverse.find? fun f => f.1 == key).map (·.2)

/-! ## `JSON.parse` -/

def isSpace (c : Char) : Bool := c == ' ' || c == '\t' || c == '\n' || c == '\r'

def skipSpace (s : List Char) : List Char := s.dropWhile isSpace

/-- The digits behind a point. -/
def parseFraction : List Char → Option (List Char × List Char)
  | '.' :: r =>
    if (r.takeWhile Char.isDigit) = [] then none else some (r.takeWhile Char.isDigit, r.dropWhile Char.isDigit)
  | s => some ([], s)

/-- The exponent behind an `e`. -/
def parseExponent (s : List Char) : Option (ℤ × List Char) :=
  let digits (negative : Bool) (r : List Char) : Option (ℤ × List Char) :=
    if (r.takeWhile Char.isDigit) = [] then none
    else
      let value : ℤ := ofDigits 10 (r.takeWhile Char.isDigit)
      some (if negative then -value else value, r.dropWhile Char.isDigit)
  match s with
  | c :: r =>
    if c = 'e' ∨ c = 'E' then
      match r with
      | '-' :: r => digits true r
      | '+' :: r => digits false r
      | r => digits false r
    else some (0, s)
  | [] => some (0, [])

/-- A number without its sign. -/
def parseUnsigned (negative : Bool) (s : List Char) : Option (JsNumber × List Char) :=
  let whole := s.takeWhile Char.isDigit
  if whole = [] ∨ (whole.head? = some '0' ∧ whole.length ≠ 1) then none
  else
    (parseFraction (s.dropWhile Char.isDigit)).bind fun (fraction, r) =>
    (parseExponent r).map fun (e, r) =>
      let value := (ofDigits 10 (whole ++ fraction) : ℚ) * ratPow 10 (e - fraction.length)
      (JsNumber.round (if negative then -value else value), r)

def parseNumber : List Char → Option (JsNumber × List Char)
  | '-' :: s => parseUnsigned true s
  | s => parseUnsigned false s

/-- The code unit of four hexadecimal digits. -/
def hexUnit (ds : List Char) : Option UInt16 :=
  if ds.length = 4 ∧ ds.all (isDigit 16) then some (UInt16.ofNat (ofDigits 16 ds)) else none

/-- A string behind its opening quote. -/
def parseString : List Char → Option (JsText × List Char)
  | [] => none
  | '"' :: r => some ([], r)
  | '\\' :: '"' :: r => (parseString r).map fun (s, r) => (unit '"' :: s, r)
  | '\\' :: '\\' :: r => (parseString r).map fun (s, r) => (unit '\\' :: s, r)
  | '\\' :: '/' :: r => (parseString r).map fun (s, r) => (unit '/' :: s, r)
  | '\\' :: 'b' :: r => (parseString r).map fun (s, r) => (8 :: s, r)
  | '\\' :: 'f' :: r => (parseString r).map fun (s, r) => (12 :: s, r)
  | '\\' :: 'n' :: r => (parseString r).map fun (s, r) => (10 :: s, r)
  | '\\' :: 'r' :: r => (parseString r).map fun (s, r) => (13 :: s, r)
  | '\\' :: 't' :: r => (parseString r).map fun (s, r) => (9 :: s, r)
  | '\\' :: 'u' :: d1 :: d2 :: d3 :: d4 :: r =>
    (hexUnit [d1, d2, d3, d4]).bind fun u => (parseString r).map fun (s, r) => (u :: s, r)
  | c :: r =>
    if c = '\\' ∨ c.toNat < 0x20 then none
    else (parseString r).map fun (s, r) => (charUnits c ++ s, r)

/-- `null`, `true` or `false`. -/
def parseKeyword (s : List Char) : Option (Json × List Char) :=
  if "null".toList.isPrefixOf s then some (.null, s.drop 4)
  else if "true".toList.isPrefixOf s then some (.bool true, s.drop 4)
  else if "false".toList.isPrefixOf s then some (.bool false, s.drop 5)
  else none

-- two steps of fuel for each character are enough: every other call reads one
mutual

def parseValue : Nat → List Char → Option (Json × List Char)
  | 0, _ => none
  | n + 1, s =>
    match skipSpace s with
    | [] => none
    | c :: r =>
      if c = '"' then (parseString r).map fun (s, r) => (.string s, r)
      else if c = '[' then
        if (skipSpace r).head? = some ']' then some (.array [], (skipSpace r).tail)
        else (parseItems n r).map fun (items, r) => (.array items, r)
      else if c = '{' then
        if (skipSpace r).head? = some '}' then some (.object [], (skipSpace r).tail)
        else (parseFields n r).map fun (fields, r) => (.object fields, r)
      else
        match parseKeyword (c :: r) with
        | some p => some p
        | none => (parseNumber (c :: r)).map fun (x, r) => (.number x, r)

/-- The items of an array, up to its end. -/
def parseItems : Nat → List Char → Option (List Json × List Char)
  | 0, _ => none
  | n + 1, s =>
    (parseValue n s).bind fun (v, r) =>
      match skipSpace r with
      | [] => none
      | c :: r =>
        if c = ',' then (parseItems n r).map fun (vs, r) => (v :: vs, r)
        else if c = ']' then some ([v], r)
        else none

/-- The fields of an object, up to its end. -/
def parseFields : Nat → List Char → Option (List (JsText × Json) × List Char)
  | 0, _ => none
  | n + 1, s =>
    match skipSpace s with
    | [] => none
    | c :: r =>
      if c = '"' then
        (parseString r).bind fun (key, r) =>
          match skipSpace r with
          | [] => none
          | c :: r =>
            if c = ':' then
              (parseValue n r).bind fun (v, r) =>
                match skipSpace r with
                | [] => none
                | c :: r =>
                  if c = ',' then (parseFields n r).map fun (fs, r) => ((key, v) :: fs, r)
                  else if c = '}' then some ([(key, v)], r)
                  else none
            else none
      else none

end

/-- `JSON.parse`; `none` where it throws. -/
def parse (s : List Char) : Option Json :=
  (parseValue (2 * s.length + 2) s).bind fun (v, r) => if skipSpace r = [] then some v else none

/-! ## `JSON.stringify` -/

def isHigh (u : UInt16) : Bool := 0xd800 ≤ u.toNat && u.toNat < 0xdc00

def isLow (u : UInt16) : Bool := 0xdc00 ≤ u.toNat && u.toNat < 0xe000

/-- The escape of a code unit in hexadecimal. -/
def escapeUnit (u : UInt16) : List Char :=
  '\\' :: 'u' :: (List.replicate (4 - (Nat.toDigits 16 u.toNat).length) '0' ++ Nat.toDigits 16 u.toNat)

/-- A code unit on its own. -/
def quoteUnit (u : UInt16) : List Char :=
  if u = unit '"' then ['\\', '"']
  else if u = unit '\\' then ['\\', '\\']
  else if u = 8 then ['\\', 'b']
  else if u = 12 then ['\\', 'f']
  else if u = 10 then ['\\', 'n']
  else if u = 13 then ['\\', 'r']
  else if u = 9 then ['\\', 't']
  else if u.toNat < 0x20 ∨ isHigh u ∨ isLow u then escapeUnit u
  else [Char.ofNat u.toNat]

/-- The text of a string between its quotes. -/
def quoteUnits : JsText → List Char
  | [] => []
  | [u] => quoteUnit u
  | u :: v :: rest =>
    if isHigh u && isLow v then
      Char.ofNat (0x10000 + (u.toNat - 0xd800) * 0x400 + (v.toNat - 0xdc00)) :: quoteUnits rest
    else quoteUnit u ++ quoteUnits (v :: rest)

mutual

def stringify : Json → List Char
  | .null => "null".toList
  | .bool b => if b then "true".toList else "false".toList
  | .number (.finite x) => numberText x
  | .number _ => "null".toList
  | .string s => '"' :: (quoteUnits s ++ ['"'])
  | .array [] => "[]".toList
  | .array (v :: vs) => '[' :: (stringify v ++ stringifyItems vs)
  | .object [] => "{}".toList
  | .object ((key, v) :: fs) => '{' :: '"' :: (quoteUnits key ++ '"' :: ':' :: (stringify v ++ stringifyFields fs))

/-- The items behind the first one, and the end of the array. -/
def stringifyItems : List Json → List Char
  | [] => [']']
  | v :: vs => ',' :: (stringify v ++ stringifyItems vs)

/-- The fields behind the first one, and the end of the object. -/
def stringifyFields : List (JsText × Json) → List Char
  | [] => ['}']
  | (key, v) :: fs => ',' :: '"' :: (quoteUnits key ++ '"' :: ':' :: (stringify v ++ stringifyFields fs))

end

/-! ## What writes a value -/

/-- What follows a number. -/
def Ends (r : List Char) : Prop := ∀ c ∈ r.head?, c.isDigit = false ∧ c ≠ '.' ∧ c ≠ 'e' ∧ c ≠ 'E'

/-- The text stands for the value, whatever follows it. -/
structure Writes (t : List Char) (v : Json) : Prop where
  starts : ∃ c rest, t = c :: rest ∧ isSpace c = false ∧ c ≠ ']' ∧ c ≠ '}'
  parses : ∀ n r, 2 * t.length ≤ n → Ends r → parseValue n (t ++ r) = some (v, r)

theorem ends_nil : Ends [] := fun _ h => by contradiction

theorem ends_cons {c : Char} (h : c = ',' ∨ c = ']' ∨ c = '}') (r : List Char) : Ends (c :: r) := by
  intro d hd
  obtain rfl := Option.some.inj hd
  rcases h with rfl | rfl | rfl <;> decide

theorem skipSpace_cons {c : Char} (hc : isSpace c = false) (r : List Char) : skipSpace (c :: r) = c :: r :=
  List.dropWhile_cons_of_neg (by rw [hc]; decide)

theorem parseValue_cons (n : Nat) {c : Char} (hc : isSpace c = false) (r : List Char) :
    parseValue (n + 1) (c :: r) =
      if c = '"' then (parseString r).map fun (s, r) => (.string s, r)
      else if c = '[' then
        if (skipSpace r).head? = some ']' then some (.array [], (skipSpace r).tail)
        else (parseItems n r).map fun (items, r) => (.array items, r)
      else if c = '{' then
        if (skipSpace r).head? = some '}' then some (.object [], (skipSpace r).tail)
        else (parseFields n r).map fun (fields, r) => (.object fields, r)
      else
        match parseKeyword (c :: r) with
        | some p => some p
        | none => (parseNumber (c :: r)).map fun (x, r) => (.number x, r) := by
  rw [parseValue, skipSpace_cons hc]

/-- A text that writes a value parses to it. -/
theorem parse_of_writes {t : List Char} {v : Json} (h : Writes t v) : parse t = some v := by
  have hvalue := h.parses (2 * t.length + 2) [] (by omega) ends_nil
  rw [List.append_nil] at hvalue
  rw [parse, hvalue]
  rfl

/-- `JSON.stringify` writes `null`. -/
theorem writes_null : Writes (stringify .null) .null where
  starts := ⟨'n', "ull".toList, by decide, by decide, by decide, by decide⟩
  parses := by
    intro n r hn _
    have htext : stringify .null = ['n', 'u', 'l', 'l'] := by decide
    rw [htext] at hn ⊢
    cases n with
    | zero => contradiction
    | succ n =>
      show parseValue (n + 1) ('n' :: ('u' :: 'l' :: 'l' :: r)) = _
      rw [parseValue_cons n (by decide)]
      rfl

/-! ## Numbers -/

theorem head_toDigits {m : Nat} (h : (Nat.toDigits 10 m).head? = some '0') : m = 0 := by
  induction m using Nat.strongRecOn with
  | ind m ih =>
    by_cases hm : m < 10
    · rw [Nat.toDigits_of_lt_base hm] at h
      have hall : ∀ d < 10, Nat.digitChar d = '0' → d = 0 := by decide
      exact hall m hm (Option.some.inj h)
    · rw [Nat.toDigits_of_base_le (by norm_num) (by omega), List.head?_append,
        Option.or_of_isSome (by simp [Nat.toDigits_ne_nil])] at h
      have := ih (m / 10) (by omega) h
      omega

theorem takeWhile_digits {ds : List Char} (hds : ∀ c ∈ ds, c.isDigit = true) {r : List Char} (hr : Ends r) :
    (ds ++ r).takeWhile Char.isDigit = ds ∧ (ds ++ r).dropWhile Char.isDigit = r := by
  have hrest : r.takeWhile Char.isDigit = [] ∧ r.dropWhile Char.isDigit = r := by
    cases r with
    | nil => exact ⟨rfl, rfl⟩
    | cons c r =>
      have hc := (hr c rfl).1
      exact ⟨List.takeWhile_cons_of_neg (by rw [hc]; decide), List.dropWhile_cons_of_neg (by rw [hc]; decide)⟩
  rw [List.takeWhile_append_of_pos hds, List.dropWhile_append_of_pos hds, hrest.1, hrest.2, List.append_nil]
  exact ⟨rfl, rfl⟩

theorem parseFraction_of_ends {r : List Char} (hr : Ends r) : parseFraction r = some ([], r) := by
  cases r with
  | nil => rfl
  | cons c r =>
    have hc := (hr c rfl).2.1
    unfold parseFraction
    split
    · rename_i heq
      exact absurd (List.cons.inj heq).1 hc
    · rfl

theorem parseExponent_of_ends {r : List Char} (hr : Ends r) : parseExponent r = some (0, r) := by
  cases r with
  | nil => rfl
  | cons c r =>
    obtain ⟨-, -, he, hE⟩ := hr c rfl
    unfold parseExponent
    exact if_neg (by rintro (h | h) <;> contradiction)

theorem parseNumber_toDigits {m : Nat} (hm : m < 2 ^ 53) {r : List Char} (hr : Ends r) :
    parseNumber (Nat.toDigits 10 m ++ r) = some (.finite m, r) := by
  have hds : ∀ c ∈ Nat.toDigits 10 m, c.isDigit = true := fun c hc =>
    Nat.isDigit_of_mem_toDigits (by norm_num) (Nat.le_refl 10) hc
  have hunsigned : parseUnsigned false (Nat.toDigits 10 m ++ r) = some (.finite m, r) := by
    obtain ⟨htake, hdrop⟩ := takeWhile_digits hds hr
    have hvalue : ofDigits 10 (Nat.toDigits 10 m) = m := ofDigits_toDigits (by norm_num) (by norm_num) m
    have hround : JsNumber.round (m : ℚ) = .finite m := by
      have := @round_int (m : ℤ) (by simpa using hm)
      simpa using this
    have hone : ratPow 10 (0 - (([] : List Char).length : ℤ)) = 1 := by decide
    rw [parseUnsigned, htake, hdrop]
    dsimp only
    rw [if_neg, parseFraction_of_ends hr, Option.bind_some]
    · dsimp only
      rw [parseExponent_of_ends hr, Option.map_some]
      dsimp only
      rw [List.append_nil, hvalue, hone, mul_one, if_neg (by decide), hround]
    · rintro (h | ⟨h, hlen⟩)
      · exact Nat.toDigits_ne_nil h
      · rw [head_toDigits h] at hlen
        exact hlen rfl
  cases hsplit : Nat.toDigits 10 m with
  | nil => exact absurd hsplit Nat.toDigits_ne_nil
  | cons c ds =>
    have hc : c ≠ '-' := by
      rintro rfl
      have := hds '-' (by rw [hsplit]; exact List.mem_cons_self)
      contradiction
    rw [hsplit] at hunsigned
    rw [List.cons_append] at hunsigned ⊢
    unfold parseNumber
    split
    · rename_i heq
      exact absurd (List.cons.inj heq).1 hc
    · exact hunsigned

/-- `JSON.stringify` writes whole numbers. -/
theorem writes_nat {m : Nat} (hm : m < 2 ^ 53) : Writes (stringify (.number (.finite m))) (.number (.finite m)) := by
  have htext : stringify (.number (.finite m)) = Nat.toDigits 10 m := by
    rw [stringify, numberText, if_pos ⟨Rat.den_natCast m, by simpa using hm⟩,
      if_neg (not_lt.mpr (Nat.cast_nonneg m)), List.nil_append, Rat.num_natCast, Int.natAbs_natCast]
  obtain ⟨c, ds, hsplit⟩ : ∃ c ds, Nat.toDigits 10 m = c :: ds := List.exists_cons_of_ne_nil Nat.toDigits_ne_nil
  have hdigit : c.isDigit = true := by
    refine Nat.isDigit_of_mem_toDigits (b := 10) (n := m) (by norm_num) (Nat.le_refl 10) ?_
    rw [hsplit]
    exact List.mem_cons_self
  have hne : ∀ d : Char, d.isDigit = false → c ≠ d := by
    rintro d hd rfl
    rw [hd] at hdigit
    contradiction
  have hspace : isSpace c = false := by
    simp only [isSpace, Bool.or_eq_false_iff, beq_eq_false_iff_ne]
    exact ⟨⟨⟨hne _ (by decide), hne _ (by decide)⟩, hne _ (by decide)⟩, hne _ (by decide)⟩
  have hkeyword : ∀ r, parseKeyword (c :: r) = none := by
    intro r
    have hn := hne 'n' (by decide)
    have ht := hne 't' (by decide)
    have hf := hne 'f' (by decide)
    have hnull : "null".toList = ['n', 'u', 'l', 'l'] := by decide
    have htrue : "true".toList = ['t', 'r', 'u', 'e'] := by decide
    have hfalse : "false".toList = ['f', 'a', 'l', 's', 'e'] := by decide
    rw [parseKeyword, hnull, htrue, hfalse]
    simp [List.isPrefixOf, hn.symm, ht.symm, hf.symm]
  refine ⟨⟨c, ds, htext.trans hsplit, hspace, hne _ (by decide), hne _ (by decide)⟩, ?_⟩
  intro n r hn hr
  rw [htext] at hn ⊢
  have hread := parseNumber_toDigits hm hr
  rw [hsplit, List.cons_append] at hread
  rw [hsplit, List.length_cons] at hn
  obtain ⟨n, rfl⟩ : ∃ k, n = k + 1 := ⟨n - 1, by omega⟩
  rw [hsplit, List.cons_append, parseValue_cons n hspace, if_neg (hne _ (by decide)), if_neg (hne _ (by decide)),
    if_neg (hne _ (by decide)), hkeyword, hread]
  rfl

/-! ## Arrays -/

theorem ends_stringifyItems (vs : List Json) (r : List Char) : Ends (stringifyItems vs ++ r) := by
  cases vs with
  | nil =>
    rw [stringifyItems]
    exact ends_cons (.inr (.inl rfl)) r
  | cons v vs =>
    rw [stringifyItems]
    exact ends_cons (.inl rfl) _

theorem parseItems_stringify {vs : List Json} (h : ∀ v ∈ vs, Writes (stringify v) v) {v : Json}
    (hv : Writes (stringify v) v) {n : Nat} (r : List Char)
    (hn : 2 * (stringify v ++ stringifyItems vs).length + 1 ≤ n) :
    parseItems n (stringify v ++ (stringifyItems vs ++ r)) = some (v :: vs, r) := by
  induction vs generalizing v n with
  | nil =>
    rw [stringifyItems, List.length_append] at hn
    obtain ⟨n, rfl⟩ : ∃ k, n = k + 1 := ⟨n - 1, by omega⟩
    rw [parseItems, hv.parses n _ (by omega) (ends_stringifyItems [] r), Option.bind_some]
    dsimp only
    rw [stringifyItems, List.cons_append, skipSpace_cons (by decide)]
    rfl
  | cons w vs ih =>
    obtain ⟨hw, hvs⟩ := List.forall_mem_cons.mp h
    have hlen : (stringify v ++ stringifyItems (w :: vs)).length =
        (stringify v).length + (stringify w ++ stringifyItems vs).length + 1 := by
      rw [stringifyItems, List.length_append, List.length_cons]
      omega
    obtain ⟨n, rfl⟩ : ∃ k, n = k + 1 := ⟨n - 1, by omega⟩
    rw [parseItems, hv.parses n _ (by omega) (ends_stringifyItems (w :: vs) r), Option.bind_some]
    dsimp only
    rw [stringifyItems, List.cons_append, skipSpace_cons (by decide), List.append_assoc]
    dsimp only
    rw [if_pos rfl, ih hvs hw (by omega)]
    rfl

/-- `JSON.stringify` writes an array whose items it writes. -/
theorem writes_array {items : List Json} (h : ∀ v ∈ items, Writes (stringify v) v) :
    Writes (stringify (.array items)) (.array items) := by
  cases items with
  | nil =>
    have htext : stringify (.array []) = ['[', ']'] := by decide
    rw [htext]
    refine ⟨⟨'[', [']'], rfl, by decide, by decide, by decide⟩, fun n r hn _ => ?_⟩
    obtain ⟨n, rfl⟩ : ∃ k, n = k + 1 := ⟨n - 1, by simp only [List.length_cons] at hn; omega⟩
    show parseValue (n + 1) ('[' :: (']' :: r)) = _
    rw [parseValue_cons n (by decide), if_neg (by decide), if_pos rfl, skipSpace_cons (by decide)]
    rfl
  | cons v vs =>
    obtain ⟨hv, hvs⟩ := List.forall_mem_cons.mp h
    rw [stringify]
    refine ⟨⟨'[', _, rfl, by decide, by decide, by decide⟩, fun n r hn _ => ?_⟩
    obtain ⟨c, t, ht, hspace, hclose, -⟩ := hv.starts
    rw [List.length_cons] at hn
    obtain ⟨n, rfl⟩ : ∃ k, n = k + 1 := ⟨n - 1, by omega⟩
    have hitems := parseItems_stringify hvs hv r (n := n) (by omega)
    rw [List.cons_append, parseValue_cons n (by decide), if_neg (by decide), if_pos rfl, List.append_assoc, hitems,
      if_neg]
    · rfl
    · rw [ht, List.cons_append, skipSpace_cons hspace]
      intro hhead
      exact hclose (Option.some.inj hhead)

/-! ## Objects -/

/-- A printable ASCII character other than a quote and a backslash. -/
def plainChar (c : Char) : Bool := 0x20 ≤ c.toNat && c.toNat < 0x7f && c != '"' && c != '\\'

/-- A key that is its own spelling. -/
def PlainKey (key : JsText) : Prop := ∃ ks : List Char, key = units ks ∧ ks.all plainChar = true

theorem plainChar_iff {c : Char} :
    plainChar c = true ↔ 0x20 ≤ c.toNat ∧ c.toNat < 0x7f ∧ c ≠ '"' ∧ c ≠ '\\' := by
  simp only [plainChar, Bool.and_eq_true, decide_eq_true_eq, bne_iff_ne, and_assoc]

theorem plain_unit {c : Char} (hlow : 0x20 ≤ c.toNat) (hhigh : c.toNat < 0x7f) (hquote : c ≠ '"') (hslash : c ≠ '\\') :
    charUnits c = [unit c] ∧ quoteUnit (unit c) = [c] ∧ isHigh (unit c) = false := by
  have hofNat : Char.ofNat c.toNat = c := Char.ofNat_toNat c
  have hall : ∀ n < 0x7f, 0x20 ≤ n → n ≠ 34 → n ≠ 92 →
      quoteUnit (UInt16.ofNat n) = [Char.ofNat n] ∧ isHigh (UInt16.ofNat n) = false := by decide
  have hne : ∀ d : Char, c ≠ d → c.toNat ≠ d.toNat := fun d hd heq => hd (Char.toNat_inj.mp heq)
  obtain ⟨h1, h2⟩ := hall c.toNat hhigh hlow (hne '"' hquote) (hne '\\' hslash)
  rw [hofNat] at h1
  exact ⟨charUnits_of_lt (by omega), h1, h2⟩

theorem parseString_cons {c : Char} (hquote : c ≠ '"') (hslash : c ≠ '\\') (hlow : 0x20 ≤ c.toNat) (r : List Char) :
    parseString (c :: r) = (parseString r).map fun (s, r) => (charUnits c ++ s, r) := by
  conv_lhs => unfold parseString
  split
  case h_12 =>
    rename_i heq
    obtain ⟨rfl, rfl⟩ := List.cons.inj heq
    exact if_neg fun h => h.elim hslash (Nat.not_lt.mpr hlow)
  all_goals simp_all

theorem quoteUnits_units {ks : List Char} (h : ks.all plainChar = true) : quoteUnits (units ks) = ks := by
  induction ks with
  | nil => rfl
  | cons c ks ih =>
    obtain ⟨hc, hks⟩ := Bool.and_eq_true_iff.mp h
    obtain ⟨hlow, hhigh, hq, hs⟩ := plainChar_iff.mp hc
    obtain ⟨hunits, hquote, hnot⟩ := plain_unit hlow hhigh hq hs
    have hrest := ih hks
    rw [units_cons, hunits]
    cases htail : units ks with
    | nil =>
      rw [htail] at hrest
      have hnil : ks = [] := hrest.symm
      rw [hnil]
      exact hquote
    | cons u us =>
      rw [htail] at hrest
      show quoteUnits (unit c :: u :: us) = _
      rw [quoteUnits, hnot, Bool.false_and, if_neg (by decide), hquote, hrest]
      rfl

theorem parseString_quoteUnits {key : JsText} (h : PlainKey key) (r : List Char) :
    parseString (quoteUnits key ++ '"' :: r) = some (key, r) := by
  obtain ⟨ks, rfl, hks⟩ := h
  rw [quoteUnits_units hks]
  induction ks with
  | nil => rfl
  | cons c ks ih =>
    obtain ⟨hc, hks⟩ := Bool.and_eq_true_iff.mp hks
    obtain ⟨hlow, -, hq, hs⟩ := plainChar_iff.mp hc
    rw [List.cons_append, units_cons, parseString_cons hq hs hlow, ih hks]
    rfl

theorem ends_stringifyFields (fs : List (JsText × Json)) (r : List Char) : Ends (stringifyFields fs ++ r) := by
  cases fs with
  | nil =>
    rw [stringifyFields]
    exact ends_cons (.inr (.inr rfl)) r
  | cons f fs =>
    rw [stringifyFields]
    exact ends_cons (.inl rfl) _

/-- A field that `JSON.stringify` writes. -/
def WritesField (f : JsText × Json) : Prop := PlainKey f.1 ∧ Writes (stringify f.2) f.2

theorem parseFields_stringify {fs : List (JsText × Json)} (h : ∀ f ∈ fs, WritesField f) {key : JsText} {v : Json}
    (hkey : PlainKey key) (hv : Writes (stringify v) v) {n : Nat} (r : List Char)
    (hn : 2 * (stringify v ++ stringifyFields fs).length + 1 ≤ n) :
    parseFields n ('"' :: (quoteUnits key ++ '"' :: ':' :: (stringify v ++ (stringifyFields fs ++ r)))) =
      some ((key, v) :: fs, r) := by
  induction fs generalizing key v n with
  | nil =>
    rw [stringifyFields, List.length_append] at hn
    obtain ⟨n, rfl⟩ : ∃ k, n = k + 1 := ⟨n - 1, by omega⟩
    rw [parseFields, skipSpace_cons (by decide)]
    dsimp only
    rw [if_pos rfl, parseString_quoteUnits hkey, Option.bind_some]
    dsimp only
    rw [skipSpace_cons (by decide)]
    dsimp only
    rw [if_pos rfl, hv.parses n _ (by omega) (ends_stringifyFields [] r), Option.bind_some]
    dsimp only
    rw [stringifyFields, List.cons_append, skipSpace_cons (by decide)]
    rfl
  | cons f fs ih =>
    obtain ⟨key', w⟩ := f
    obtain ⟨⟨hkey', hw⟩, hfs⟩ := List.forall_mem_cons.mp h
    have hw : Writes (stringify w) w := hw
    have hlen : (stringify v).length + (stringify w ++ stringifyFields fs).length + 1 ≤
        (stringify v ++ stringifyFields ((key', w) :: fs)).length := by
      rw [stringifyFields]
      simp only [List.length_append, List.length_cons]
      omega
    obtain ⟨n, rfl⟩ : ∃ k, n = k + 1 := ⟨n - 1, by omega⟩
    have hrest := ih hfs hkey' hw (n := n) (by omega)
    rw [parseFields, skipSpace_cons (by decide)]
    dsimp only
    rw [if_pos rfl, parseString_quoteUnits hkey, Option.bind_some]
    dsimp only
    rw [skipSpace_cons (by decide)]
    dsimp only
    rw [if_pos rfl, hv.parses n _ (by omega) (ends_stringifyFields ((key', w) :: fs) r), Option.bind_some]
    dsimp only
    have htext : stringifyFields ((key', w) :: fs) ++ r =
        ',' :: '"' :: (quoteUnits key' ++ '"' :: ':' :: (stringify w ++ (stringifyFields fs ++ r))) := by
      rw [stringifyFields]
      simp only [List.cons_append, List.append_assoc]
    rw [htext, skipSpace_cons (by decide)]
    dsimp only
    rw [if_pos rfl, hrest]
    rfl

/-- `JSON.stringify` writes an object whose fields it writes. -/
theorem writes_object {fields : List (JsText × Json)} (h : ∀ f ∈ fields, WritesField f) :
    Writes (stringify (.object fields)) (.object fields) := by
  cases fields with
  | nil =>
    have htext : stringify (.object []) = ['{', '}'] := by decide
    rw [htext]
    refine ⟨⟨'{', ['}'], rfl, by decide, by decide, by decide⟩, fun n r hn _ => ?_⟩
    obtain ⟨n, rfl⟩ : ∃ k, n = k + 1 := ⟨n - 1, by simp only [List.length_cons] at hn; omega⟩
    show parseValue (n + 1) ('{' :: ('}' :: r)) = _
    rw [parseValue_cons n (by decide), if_neg (by decide), if_neg (by decide), if_pos rfl, skipSpace_cons (by decide)]
    rfl
  | cons f fs =>
    obtain ⟨key, v⟩ := f
    obtain ⟨⟨hkey, hv⟩, hfs⟩ := List.forall_mem_cons.mp h
    have hv : Writes (stringify v) v := hv
    rw [stringify]
    refine ⟨⟨'{', _, rfl, by decide, by decide, by decide⟩, fun n r hn _ => ?_⟩
    simp only [List.length_cons, List.length_append] at hn
    obtain ⟨n, rfl⟩ : ∃ k, n = k + 1 := ⟨n - 1, by omega⟩
    have hfields := parseFields_stringify hfs hkey hv r (n := n) (by rw [List.length_append]; omega)
    have htext : '"' :: (quoteUnits key ++ '"' :: ':' :: (stringify v ++ stringifyFields fs)) ++ r =
        '"' :: (quoteUnits key ++ '"' :: ':' :: (stringify v ++ (stringifyFields fs ++ r))) := by
      simp only [List.cons_append, List.append_assoc]
    rw [List.cons_append, htext, parseValue_cons n (by decide), if_neg (by decide), if_neg (by decide), if_pos rfl,
      hfields, if_neg]
    · rfl
    · rw [skipSpace_cons (by decide)]
      intro hhead
      have hquote := Option.some.inj hhead
      contradiction

end Json

end Obliguard
