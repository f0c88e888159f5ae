import Obliguard.Lib.Lines
import Obliguard.Lib.Text

/-!
# Editing pf.conf

`pfConfWithAnchor` and `pfConfWithoutAnchor` of `agent/firewall_pf.go`. `pfConf_edit` says that the anchor is added
once, that every line of another origin stays, in its order, and that removing the anchor leaves these lines.
-/

namespace Obliguard.Agent

open Lines Text

def pfAnchor : String := "obliguard"

def pfTable : String := "obliguard_blocklist"

/-- `pfAnchorFilePath`, the only anchor file that `pfPlatform` names. -/
def pfAnchorFilePath : List Char := "/etc/pf.anchors/obliguard".toList

def pfConfMarker : List Char :=
  "# Obliguard IPS: ban anchor (managed by obliguard-agent, removed on uninstall)".toList

/-- A key of `pfConfLegacyLines`. -/
def pfConfLegacyLine (l : List Char) : Bool :=
  l == "# Obliguard IPS — managed automatically, do not edit".toList ||
    l == ("table <" ++ pfTable ++ "> persist").toList ||
    l == ("block in quick from <" ++ pfTable ++ ">").toList ||
    l == ("block out quick to <" ++ pfTable ++ ">").toList

/-- `anchor "obliguard"`. -/
def pfAnchorLine : List Char := ("anchor \"" ++ pfAnchor ++ "\"").toList

def pfConfIsAnchorLine (l : List Char) : Bool := l == pfAnchorLine || l == ("anchor " ++ pfAnchor).toList

/-- `load anchor "obliguard" from`. -/
def pfLoadStart : List Char := ("load anchor \"" ++ pfAnchor ++ "\" from ").toList

def pfConfIsLoadLine (l : List Char) : Bool :=
  pfLoadStart.isPrefixOf l || ("load anchor " ++ pfAnchor ++ " from ").toList.isPrefixOf l

/-- `load anchor "obliguard" from "..."`. -/
def pfLoadLine (anchorFile : List Char) : List Char := pfLoadStart ++ '"' :: anchorFile ++ ['"']

/-- `pfConfLines`. -/
def pfConfLines (conf : List Char) : List (List Char) :=
  let conf := conf.filter (· ≠ '\r')
  if conf = [] then [] else conf.splitOn '\n'

/-- What `strings.TrimRight` takes off. -/
def pfBlank (c : Char) : Bool := c == '\n' || c == ' ' || c == '\t'

/-- `pfConfJoin`. -/
def pfConfJoin (lines : List (List Char)) : List Char :=
  let s := trimmed '\n' pfBlank lines
  if s = [] then [] else s ++ ['\n']

/-- The lines that `pfConfWithAnchor` keeps. -/
def pfConfKept (conf : List Char) : List (List Char) :=
  (pfConfLines conf).filter fun line => !pfConfLegacyLine (goTrim line)

/-- The lines that `pfConfWithAnchor` adds to the kept ones. -/
def pfConfAdd (kept : List (List Char)) (anchorFile : List Char) : List (List Char) :=
  let hasAnchor := kept.any fun line => pfConfIsAnchorLine (goTrim line)
  let hasLoad := kept.any fun line => pfConfIsLoadLine (goTrim line)
  if !hasAnchor || !hasLoad then
    pfConfMarker :: ((if hasAnchor then [] else [pfAnchorLine]) ++ (if hasLoad then [] else [pfLoadLine anchorFile]))
  else []

/-- The kept lines, and the added ones below them. -/
def pfConfAppend (kept add : List (List Char)) : List Char :=
  let out := pfConfJoin kept
  if add ≠ [] then (if out ≠ [] then out ++ ['\n'] else out) ++ (['\n'].intercalate add ++ ['\n'])
  else out

/-- `pfConfWithAnchor`. -/
def pfConfWithAnchor (conf anchorFile : List Char) : List Char × Bool :=
  let kept := pfConfKept conf
  let out := pfConfAppend kept (pfConfAdd kept anchorFile)
  (out, out ≠ conf.filter (· ≠ '\r'))

/-- A line of the agent: the marker, the reference of the anchor or its loading. -/
def pfConfIsOwnLine (l : List Char) : Bool := l == pfConfMarker || pfConfIsAnchorLine l || pfConfIsLoadLine l

/-- `pfConfWithoutAnchor`. -/
def pfConfWithoutAnchor (conf : List Char) : List Char × Bool :=
  let obliguard (line : List Char) : Bool := pfConfIsOwnLine (goTrim line) || pfConfLegacyLine (goTrim line)
  if (pfConfLines conf).any obliguard then (pfConfJoin ((pfConfLines conf).filter fun line => !obliguard line), true)
  else (conf, false)

/-- The lines that are none of the agent's. -/
def pfOtherLines (conf : List Char) : List (List Char) :=
  (pfConfLines conf).filter fun line => !pfConfIsOwnLine (goTrim line)

/-! ## Lines and blanks -/

theorem goTrim_concat {c : Char} (hc : isGoSpace c = true) (l : List Char) : goTrim (l ++ [c]) = goTrim l := by
  rw [goTrim, goTrim, trimBy, trimBy, List.dropWhile_append]
  split
  · rename_i hnil
    rw [List.isEmpty_iff.mp hnil, List.dropWhile_cons_of_pos hc, List.dropWhile_nil]
  · rw [List.reverse_append, List.reverse_singleton, List.singleton_append, List.dropWhile_cons_of_pos hc]

theorem isGoSpace_of_pfBlank {c : Char} (hc : pfBlank c = true) : isGoSpace c = true := by
  simp only [pfBlank, Bool.or_eq_true, beq_iff_eq] at hc
  rcases hc with (rfl | rfl) | rfl <;> decide

theorem trimInvariant_goTrim (r : List Char → Bool) : TrimInvariant '\n' pfBlank fun line => r (goTrim line) := by
  intro l c hc _
  dsimp only
  rw [goTrim_concat (isGoSpace_of_pfBlank hc)]

theorem pfConfLines_of_cr {t : List Char} (hcr : '\r' ∉ t) (ht : t ≠ []) : pfConfLines t = t.splitOn '\n' := by
  have hfilter : t.filter (· ≠ '\r') = t := by
    refine List.filter_eq_self.mpr fun c hc => decide_eq_true ?_
    rintro rfl
    exact hcr hc
  rw [pfConfLines, hfilter]
  exact if_neg ht

/-- A line without a line break. -/
def Unbroken (l : List Char) : Prop := '\n' ∉ l ∧ '\r' ∉ l

theorem unbroken_pfConfLines (conf : List Char) : ∀ l ∈ pfConfLines conf, Unbroken l := by
  intro l hl
  rw [pfConfLines] at hl
  split at hl
  · contradiction
  · refine ⟨sep_not_mem_of_mem_splitOn _ l hl, fun hmem => ?_⟩
    have hconf := (List.mem_filter.mp (mem_of_mem_splitOn hl hmem)).2
    exact of_decide_eq_true hconf rfl

theorem cr_not_mem_intercalate {ls : List (List Char)} (h : ∀ l ∈ ls, Unbroken l) : '\r' ∉ ['\n'].intercalate ls := by
  intro hmem
  rcases mem_intercalate hmem with heq | ⟨l, hl, hc⟩
  · contradiction
  · exact (h l hl).2 hc

theorem any_trimmed {ls : List (List Char)} (h : ∀ l ∈ ls, Unbroken l) {r : List Char → Bool} (hnil : r [] = false) :
    ((trimmed '\n' pfBlank ls).splitOn '\n').any (fun line => r (goTrim line)) =
      ls.any fun line => r (goTrim line) := by
  rw [trimmed, any_splitOn_rdropWhile (trimInvariant_goTrim r) hnil]
  by_cases hls : ls = []
  · rw [hls]
    exact Bool.or_eq_false_iff.mpr ⟨hnil, rfl⟩
  · rw [List.splitOn_intercalate _ (fun l hl => (h l hl).1) hls]

theorem trimmed_filter_trimmed {ls : List (List Char)} (h : ∀ l ∈ ls, Unbroken l) {r : List Char → Bool}
    (hnil : r [] = true) :
    trimmed '\n' pfBlank (((trimmed '\n' pfBlank ls).splitOn '\n').filter fun line => r (goTrim line)) =
      trimmed '\n' pfBlank (ls.filter fun line => r (goTrim line)) := by
  have htrimmed : trimmed '\n' pfBlank ls = (['\n'].intercalate ls).rdropWhile pfBlank := rfl
  rw [htrimmed, trimmed_filter_splitOn (trimInvariant_goTrim r) hnil rfl]
  by_cases hls : ls = []
  · rw [hls]
    show trimmed '\n' pfBlank ([[]].filter fun line => r (goTrim line)) = _
    have hempty : r (goTrim []) = true := hnil
    rw [List.filter_cons, if_pos hempty]
    rfl
  · rw [List.splitOn_intercalate _ (fun l hl => (h l hl).1) hls]

/-! ## The added lines -/

theorem goTrim_of_ends {c d : Char} (hc : isGoSpace c = false) (hd : isGoSpace d = false) (l : List Char) :
    goTrim (c :: l ++ [d]) = c :: l ++ [d] := by
  rw [goTrim, trimBy, List.cons_append, List.dropWhile_cons_of_neg (by rw [hc]; decide), ← List.cons_append,
    List.reverse_append, List.reverse_singleton, List.singleton_append,
    List.dropWhile_cons_of_neg (by rw [hd]; decide), List.reverse_cons, List.reverse_reverse]

section added
variable {kept : List (List Char)} {anchorFile : List Char}

theorem pfLoadStart_eq : pfLoadStart = 'l' :: pfLoadStart.tail := by decide

theorem goTrim_pfLoadLine : goTrim (pfLoadLine anchorFile) = pfLoadLine anchorFile := by
  rw [pfLoadLine, pfLoadStart_eq, List.cons_append]
  exact goTrim_of_ends (by decide) (by decide) _

theorem pfConfIsLoadLine_pfLoadLine : pfConfIsLoadLine (pfLoadLine anchorFile) = true := by
  rw [pfConfIsLoadLine, Bool.or_eq_true]
  left
  rw [List.isPrefixOf_iff_prefix, pfLoadLine, List.append_assoc]
  exact List.prefix_append _ _

theorem mem_pfConfAdd {l : List Char} (h : l ∈ pfConfAdd kept anchorFile) :
    l = pfConfMarker ∨ l = pfAnchorLine ∨ l = pfLoadLine anchorFile := by
  rw [pfConfAdd] at h
  split at h
  · rcases List.mem_cons.mp h with rfl | h
    · exact .inl rfl
    · rcases List.mem_append.mp h with h | h
      · split at h
        · contradiction
        · exact .inr (.inl (List.mem_singleton.mp h))
      · split at h
        · contradiction
        · exact .inr (.inr (List.mem_singleton.mp h))
  · contradiction

theorem own_of_mem_pfConfAdd {l : List Char} (h : l ∈ pfConfAdd kept anchorFile) :
    pfConfIsOwnLine (goTrim l) = true ∧ pfConfLegacyLine (goTrim l) = false := by
  rcases mem_pfConfAdd h with rfl | rfl | rfl
  · decide
  · decide
  · rw [goTrim_pfLoadLine]
    constructor
    · rw [pfConfIsOwnLine, pfConfIsLoadLine_pfLoadLine, Bool.or_true]
    · -- the legacy lines start with another character
      have hhead : ∀ x : List Char, x.head? ≠ some 'l' → (pfLoadLine anchorFile == x) = false := by
        rintro x hx
        rw [beq_eq_false_iff_ne, pfLoadLine, pfLoadStart_eq]
        rintro rfl
        exact hx rfl
      rw [pfConfLegacyLine, hhead _ (by decide), hhead _ (by decide), hhead _ (by decide),
        hhead _ (by decide)]
      rfl

theorem unbroken_pfConfAdd (hfile : Unbroken anchorFile) : ∀ l ∈ pfConfAdd kept anchorFile, Unbroken l := by
  intro l hl
  rcases mem_pfConfAdd hl with rfl | rfl | rfl
  · unfold Unbroken
    decide
  · unfold Unbroken
    decide
  · have hstart : Unbroken pfLoadStart := by
      unfold Unbroken
      decide
    have hmem : ∀ c, c ∈ pfLoadLine anchorFile → c ∈ pfLoadStart ∨ c = '"' ∨ c ∈ anchorFile := by
      intro c hc
      rw [pfLoadLine, List.mem_append, List.mem_append, List.mem_cons, List.mem_singleton] at hc
      rcases hc with (hc | hc | hc) | hc
      · exact .inl hc
      · exact .inr (.inl hc)
      · exact .inr (.inr hc)
      · exact .inr (.inl hc)
    constructor
    · intro hc
      rcases hmem _ hc with hc | hc | hc
      · exact hstart.1 hc
      · contradiction
      · exact hfile.1 hc
    · intro hc
      rcases hmem _ hc with hc | hc | hc
      · exact hstart.2 hc
      · contradiction
      · exact hfile.2 hc

theorem hasAnchor_hasLoad : (kept.any (fun line => pfConfIsAnchorLine (goTrim line)) ||
      (pfConfAdd kept anchorFile).any fun line => pfConfIsAnchorLine (goTrim line)) = true ∧
    (kept.any (fun line => pfConfIsLoadLine (goTrim line)) ||
      (pfConfAdd kept anchorFile).any fun line => pfConfIsLoadLine (goTrim line)) = true := by
  have hanchor : pfConfIsAnchorLine (goTrim pfAnchorLine) = true := by decide
  have hload : pfConfIsLoadLine (goTrim (pfLoadLine anchorFile)) = true := by
    rw [goTrim_pfLoadLine, pfConfIsLoadLine_pfLoadLine]
  rw [pfConfAdd]
  cases kept.any (fun line => pfConfIsAnchorLine (goTrim line)) with
  | false =>
    cases kept.any (fun line => pfConfIsLoadLine (goTrim line)) with
    | false => simp [hanchor, hload]
    | true => simp [hanchor]
  | true =>
    cases kept.any (fun line => pfConfIsLoadLine (goTrim line)) with
    | false => simp [hload]
    | true => simp

theorem quote_pfConfAdd (h : pfConfAdd kept anchorFile ≠ []) :
    ∃ x, ['\n'].intercalate (pfConfAdd kept anchorFile) = x ++ ['"'] := by
  have hend : ∀ (pre : List (List Char)) (l : List Char), pre ≠ [] →
      ∃ x, ['\n'].intercalate (pre ++ [l ++ ['"']]) = x ++ ['"'] := by
    intro pre l hpre
    refine ⟨['\n'].intercalate pre ++ '\n' :: l, ?_⟩
    rw [intercalate_concat hpre, List.append_assoc]
    rfl
  have hanchor : pfAnchorLine = pfAnchorLine.dropLast ++ ['"'] := by decide
  revert h
  rw [pfConfAdd]
  cases kept.any (fun line => pfConfIsAnchorLine (goTrim line)) with
  | false =>
    cases kept.any (fun line => pfConfIsLoadLine (goTrim line)) with
    | false => exact fun _ => hend [pfConfMarker, pfAnchorLine] _ (List.cons_ne_nil _ _)
    | true =>
      rw [hanchor]
      exact fun _ => hend [pfConfMarker] _ (List.cons_ne_nil _ _)
  | true =>
    cases kept.any (fun line => pfConfIsLoadLine (goTrim line)) with
    | false => exact fun _ => hend [pfConfMarker] _ (List.cons_ne_nil _ _)
    | true => exact fun h => absurd rfl h

end added

/-! ## The edited text -/

section text
variable {kept add : List (List Char)}

/-- The lines of the text: the kept ones without the blanks at their end, an empty one, the added ones and what
follows the last line break. -/
theorem pfConfLines_append (hkept : ∀ l ∈ kept, Unbroken l) (hadd : ∀ l ∈ add, Unbroken l)
    (hne : add ≠ [] ∨ trimmed '\n' pfBlank kept ≠ []) : pfConfLines (pfConfAppend kept add) =
      (if trimmed '\n' pfBlank kept = [] then []
        else (trimmed '\n' pfBlank kept).splitOn '\n' ++ if add = [] then [] else [[]]) ++ add ++ [[]] := by
  have hcrKept : '\r' ∉ trimmed '\n' pfBlank kept := fun h =>
    cr_not_mem_intercalate hkept ((List.rdropWhile_prefix _ _).subset h)
  have hcrAdd : '\r' ∉ ['\n'].intercalate add := cr_not_mem_intercalate hadd
  have hsplit : add ≠ [] → (['\n'].intercalate add ++ ['\n']).splitOn '\n' = add ++ [[]] := fun h => by
    rw [splitOn_concat_sep, List.splitOn_intercalate _ (fun l hl => (hadd l hl).1) h]
  rw [pfConfAppend, pfConfJoin]
  generalize trimmed '\n' pfBlank kept = s at hne hcrKept ⊢
  by_cases hs : s = []
  · have hsome : add ≠ [] := hne.resolve_right fun h => h hs
    rw [if_pos hs, if_pos hs, if_pos hsome, if_neg (fun h => h rfl), List.nil_append, List.nil_append,
      pfConfLines_of_cr _ (by simp), hsplit hsome]
    simpa using hcrAdd
  · rw [if_neg hs, if_neg hs]
    by_cases hnone : add = []
    · rw [if_neg (fun h => h hnone), if_pos hnone, hnone, pfConfLines_of_cr _ (by simp), splitOn_concat_sep]
      · simp
      · simpa using hcrKept
    · have htext : (s ++ ['\n'] ++ ['\n']) ++ (['\n'].intercalate add ++ ['\n']) =
          s ++ '\n' :: ([] ++ '\n' :: (['\n'].intercalate add ++ ['\n'])) := by simp
      rw [if_pos hnone, if_pos (by simp), if_neg hnone, htext, pfConfLines_of_cr _ (by simp),
        List.splitOn_append_cons_self, List.splitOn_append_cons_self, hsplit hnone]
      · simp
      · simp [hcrKept, hcrAdd]

theorem any_append (hkept : ∀ l ∈ kept, Unbroken l) (hadd : ∀ l ∈ add, Unbroken l)
    (hne : add ≠ [] ∨ trimmed '\n' pfBlank kept ≠ []) {r : List Char → Bool} (hnil : r [] = false) :
    (pfConfLines (pfConfAppend kept add)).any (fun line => r (goTrim line)) =
      (kept.any (fun line => r (goTrim line)) || add.any fun line => r (goTrim line)) := by
  have hempty : r (goTrim []) = false := hnil
  have hany := any_trimmed hkept hnil
  rw [pfConfLines_append hkept hadd hne, List.any_append, List.any_append, ← hany]
  split
  · rename_i hs
    rw [hs]
    simp [hempty]
  · split
    · simp [hempty]
    · simp [hempty]

theorem trimmed_filter_append (hkept : ∀ l ∈ kept, Unbroken l) (hadd : ∀ l ∈ add, Unbroken l)
    (hne : add ≠ [] ∨ trimmed '\n' pfBlank kept ≠ []) {r : List Char → Bool} (hnil : r [] = true)
    (hnone : ∀ l ∈ add, r (goTrim l) = false) :
    trimmed '\n' pfBlank ((pfConfLines (pfConfAppend kept add)).filter fun line => r (goTrim line)) =
      trimmed '\n' pfBlank (kept.filter fun line => r (goTrim line)) := by
  have hempty : [[]].filter (fun line => r (goTrim line)) = [[]] := by
    rw [List.filter_cons, if_pos (show r (goTrim []) = true from hnil)]
    rfl
  have hadd : add.filter (fun line => r (goTrim line)) = [] := by
    rw [List.filter_eq_nil_iff]
    intro l hl
    rw [hnone l hl]
    decide
  rw [pfConfLines_append hkept ‹_› hne, List.filter_append, List.filter_append, hadd, List.append_nil, hempty,
    trimmed_concat_nil rfl, ← trimmed_filter_trimmed hkept hnil]
  split
  · rename_i hs
    rw [hs, List.splitOn_nil, hempty]
    rfl
  · rw [List.filter_append]
    split
    · rw [List.filter_nil, List.append_nil]
    · rw [hempty, trimmed_concat_nil rfl]

theorem pfConfJoin_pfConfLines {x : List Char} {c : Char} (hcr : '\r' ∉ x ++ [c]) (hc : pfBlank c = false) :
    pfConfJoin (pfConfLines (x ++ [c] ++ ['\n'])) = x ++ [c] ++ ['\n'] := by
  have hlines : trimmed '\n' pfBlank (pfConfLines (x ++ [c] ++ ['\n'])) = x ++ [c] := by
    rw [pfConfLines_of_cr (by simpa using hcr) (by simp), trimmed, List.intercalate_splitOn,
      List.rdropWhile_concat_pos _ _ _ (by decide), List.rdropWhile_concat_neg _ _ _ (by rw [hc]; decide)]
  rw [pfConfJoin, hlines]
  exact if_neg (by simp)

end text

/-! ## Editing twice -/

theorem empty_line : pfConfLegacyLine [] = false ∧ pfConfIsOwnLine [] = false ∧ pfConfIsAnchorLine [] = false ∧
    pfConfIsLoadLine [] = false := by decide

section edit
variable {anchorFile : List Char}

theorem unbroken_pfConfKept (conf : List Char) : ∀ l ∈ pfConfKept conf, Unbroken l := fun l hl =>
  unbroken_pfConfLines conf l (List.mem_filter.mp hl).1

theorem edited_ne (conf : List Char) :
    pfConfAdd (pfConfKept conf) anchorFile ≠ [] ∨ trimmed '\n' pfBlank (pfConfKept conf) ≠ [] := by
  refine or_iff_not_imp_left.mpr fun hadd hs => ?_
  have hanchor := (@hasAnchor_hasLoad (pfConfKept conf) anchorFile).1
  rw [not_not.mp hadd, List.any_nil, Bool.or_false, ← any_trimmed (unbroken_pfConfKept conf) empty_line.2.2.1, hs]
    at hanchor
  exact absurd hanchor (by decide)

theorem any_edited (conf : List Char) (hfile : Unbroken anchorFile) {r : List Char → Bool} (hnil : r [] = false) :
    (pfConfLines (pfConfWithAnchor conf anchorFile).1).any (fun line => r (goTrim line)) =
      ((pfConfKept conf).any (fun line => r (goTrim line)) ||
        (pfConfAdd (pfConfKept conf) anchorFile).any fun line => r (goTrim line)) :=
  any_append (unbroken_pfConfKept conf) (unbroken_pfConfAdd hfile) (edited_ne conf) hnil

theorem not_legacy_edited (conf : List Char) (hfile : Unbroken anchorFile) :
    ∀ l ∈ pfConfLines (pfConfWithAnchor conf anchorFile).1, pfConfLegacyLine (goTrim l) = false := by
  have hnone : (pfConfLines (pfConfWithAnchor conf anchorFile).1).any (fun line => pfConfLegacyLine (goTrim line)) =
      false := by
    rw [any_edited conf hfile empty_line.1, Bool.or_eq_false_iff, List.any_eq_false, List.any_eq_false]
    constructor
    · intro l hl
      have hkept := (List.mem_filter.mp hl).2
      rw [Bool.not_eq_true'] at hkept
      rw [hkept]
      decide
    · intro l hl
      rw [(own_of_mem_pfConfAdd hl).2]
      decide
  intro l hl
  exact Bool.eq_false_iff.mpr (List.any_eq_false.mp hnone l hl)

theorem edited_ends (conf : List Char) (hfile : Unbroken anchorFile) :
    ∃ x c, (pfConfWithAnchor conf anchorFile).1 = x ++ [c] ++ ['\n'] ∧ '\r' ∉ x ++ [c] ∧ pfBlank c = false := by
  have hcrKept : '\r' ∉ trimmed '\n' pfBlank (pfConfKept conf) := fun h =>
    cr_not_mem_intercalate (unbroken_pfConfKept conf) ((List.rdropWhile_prefix _ _).subset h)
  have hcrAdd : '\r' ∉ ['\n'].intercalate (pfConfAdd (pfConfKept conf) anchorFile) :=
    cr_not_mem_intercalate (unbroken_pfConfAdd hfile)
  show ∃ x c, pfConfAppend (pfConfKept conf) (pfConfAdd (pfConfKept conf) anchorFile) = _ ∧ _
  rw [pfConfAppend, pfConfJoin]
  by_cases hadd : pfConfAdd (pfConfKept conf) anchorFile = []
  · have hs := (edited_ne conf).resolve_left fun h => h hadd
    obtain ⟨x, c, hx, hc⟩ := trimmed_ends hs
    refine ⟨x, c, ?_, hx ▸ hcrKept, hc⟩
    rw [if_neg (fun h => h hadd), if_neg hs, hx]
  · obtain ⟨y, hy⟩ := quote_pfConfAdd hadd
    rw [hy] at hcrAdd ⊢
    rw [if_pos hadd]
    by_cases hs : trimmed '\n' pfBlank (pfConfKept conf) = []
    · refine ⟨y, '"', ?_, hcrAdd, by decide⟩
      rw [if_pos hs, if_neg (fun h => h rfl), List.nil_append]
    · refine ⟨trimmed '\n' pfBlank (pfConfKept conf) ++ ['\n'] ++ ['\n'] ++ y, '"', ?_, ?_, by decide⟩
      · rw [if_neg hs, if_pos (by simp)]
        simp only [List.append_assoc]
      · simp only [List.mem_append, List.mem_singleton, not_or] at hcrAdd ⊢
        exact ⟨⟨⟨⟨hcrKept, by decide⟩, by decide⟩, hcrAdd.1⟩, hcrAdd.2⟩

end edit

/-- Editing is idempotent and undone by removing the anchor: the text with the anchor is not edited again; its lines
that are none of the agent's are those of the text before that are neither of the agent's nor legacy ones, but for the
blanks at their end; and these lines are what removing the anchor leaves. -/
theorem pfConf_edit (conf anchorFile : List Char) (hfile : Unbroken anchorFile) :
    pfConfWithAnchor (pfConfWithAnchor conf anchorFile).1 anchorFile = ((pfConfWithAnchor conf anchorFile).1, false) ∧
    trimmed '\n' pfBlank (pfOtherLines (pfConfWithAnchor conf anchorFile).1) =
      trimmed '\n' pfBlank ((pfOtherLines conf).filter fun line => !pfConfLegacyLine (goTrim line)) ∧
    pfConfWithoutAnchor (pfConfWithAnchor conf anchorFile).1 =
      (pfConfJoin (pfOtherLines (pfConfWithAnchor conf anchorFile).1), true) := by
  obtain ⟨hlegacyNil, hownNil, hanchorNil, hloadNil⟩ := empty_line
  have hlegacy := not_legacy_edited conf hfile
  refine ⟨?_, ?_, ?_⟩
  · obtain ⟨x, c, hw, hcr, hc⟩ := edited_ends conf hfile
    have hkept : pfConfKept (pfConfWithAnchor conf anchorFile).1 =
        pfConfLines (pfConfWithAnchor conf anchorFile).1 := by
      refine List.filter_eq_self.mpr fun l hl => ?_
      rw [hlegacy l hl]
      rfl
    have hanchor : (pfConfLines (pfConfWithAnchor conf anchorFile).1).any (fun l => pfConfIsAnchorLine (goTrim l)) =
        true := by
      rw [any_edited conf hfile hanchorNil]
      exact hasAnchor_hasLoad.1
    have hload : (pfConfLines (pfConfWithAnchor conf anchorFile).1).any (fun l => pfConfIsLoadLine (goTrim l)) =
        true := by
      rw [any_edited conf hfile hloadNil]
      exact hasAnchor_hasLoad.2
    have hnone : pfConfAdd (pfConfLines (pfConfWithAnchor conf anchorFile).1) anchorFile = [] := by
      rw [pfConfAdd, hanchor, hload]
      rfl
    have hclean : (pfConfWithAnchor conf anchorFile).1.filter (· ≠ '\r') = (pfConfWithAnchor conf anchorFile).1 := by
      refine List.filter_eq_self.mpr fun d hd => decide_eq_true ?_
      rintro rfl
      rw [hw] at hd
      exact hcr (by simpa using hd)
    have hjoin : pfConfAppend (pfConfLines (pfConfWithAnchor conf anchorFile).1) [] =
        (pfConfWithAnchor conf anchorFile).1 := by
      rw [pfConfAppend, if_neg (fun h => h rfl), hw, pfConfJoin_pfConfLines hcr hc]
    rw [pfConfWithAnchor, hkept, hnone, hclean, hjoin]
    exact Prod.ext rfl (decide_eq_false fun h => h rfl)
  · refine (trimmed_filter_append (r := fun l => !pfConfIsOwnLine l) (unbroken_pfConfKept conf)
      (unbroken_pfConfAdd hfile) (edited_ne conf) (by rw [hownNil]; rfl) fun l hl => ?_).trans ?_
    · rw [(own_of_mem_pfConfAdd hl).1]
      rfl
    · rw [pfOtherLines, pfConfKept, List.filter_comm]
  · have hany : (pfConfLines (pfConfWithAnchor conf anchorFile).1).any (fun l => pfConfIsOwnLine (goTrim l) ||
        pfConfLegacyLine (goTrim l)) = true := by
      have hanchor := (any_edited conf hfile hanchorNil).trans hasAnchor_hasLoad.1
      obtain ⟨l, hl, hline⟩ := List.any_eq_true.mp hanchor
      refine List.any_eq_true.mpr ⟨l, hl, ?_⟩
      rw [pfConfIsOwnLine, hline, Bool.or_true, Bool.true_or, Bool.true_or]
    have hothers : (pfConfLines (pfConfWithAnchor conf anchorFile).1).filter (fun l => !(pfConfIsOwnLine (goTrim l) ||
        pfConfLegacyLine (goTrim l))) = pfOtherLines (pfConfWithAnchor conf anchorFile).1 := by
      refine List.filter_congr fun l hl => ?_
      rw [hlegacy l hl, Bool.or_false]
    rw [pfConfWithoutAnchor]
    dsimp only
    rw [hany, if_pos rfl, hothers]

/-- The anchor file of every platform. -/
theorem pfConf_edit_pass : Unbroken pfAnchorFilePath ∧
    pfConfWithAnchor (pfConfWithAnchor "pass all \r\n".toList pfAnchorFilePath).1 pfAnchorFilePath =
      ((pfConfWithAnchor "pass all \r\n".toList pfAnchorFilePath).1, false) ∧
    pfConfWithoutAnchor (pfConfWithAnchor "pass all \r\n".toList pfAnchorFilePath).1 = ("pass all\n".toList, true) := by
  have hfile : Unbroken pfAnchorFilePath := by
    unfold Unbroken
    decide
  obtain ⟨hagain, -, hwithout⟩ := pfConf_edit "pass all \r\n".toList pfAnchorFilePath hfile
  have hjoin : pfConfJoin (pfOtherLines (pfConfWithAnchor "pass all \r\n".toList pfAnchorFilePath).1) =
      "pass all\n".toList := by decide
  exact ⟨hfile, hagain, hwithout.trans (by rw [hjoin])⟩

end Obliguard.Agent
