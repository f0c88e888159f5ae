import Mathlib.Logic.Function.Basic
import Obliguard.Lib.Lines
import Obliguard.Lib.Runs

/-!
# Following a log across rotations

The loop of `tailFile` in `agent/logwatcher.go` with `pruneOffsets`, over files that are appended to. A poll is three
steps, the choice of the file by `newestMatch`, the stat and the read, and writes come between any two of them. The
service stays enabled, and a line that is read is handed to the parser.

What is read of a file is its lines in order, each once, up to the offset that is kept for it, whatever the order of
the steps (`tailFile_reads_once`). A read leaves no complete line of its file; those of another file wait until it is
the newest again.
-/

namespace Obliguard.Agent

open Lines

/-- The newline and the carriage return. -/
def lf : UInt8 := 10

def cr : UInt8 := 13

def maxPartialLine : Nat := 1 <<< 20

/-- The lines that the inner loop of `tailFile` hands to the parser. -/
def logLines (data : List UInt8) : List (List UInt8) :=
  ((complete lf data).map (List.rdropWhile (· == cr))).filter (· ≠ [])

/-- What of the new bytes is read: up to the last newline, or a line that is too long. -/
def consumed (data : List UInt8) : List UInt8 :=
  if lf ∈ data then data.rdropWhile (· ≠ lf)
  else if data.length < maxPartialLine then []
  else data

/-- The variables of `tailFile`; the offset is `none` for `-1`. -/
structure Tailer where
  offsets : String → Option Nat
  current : String
  started : Bool
  offset : Option Nat

namespace Tailer

/-- The variables before the loop. -/
def init (path : String) : Tailer := ⟨fun _ => none, path, false, none⟩

/-- `pruneOffsets`: the offsets of the files that are there. -/
def pruneOffsets (live : String → Bool) (t : Tailer) : Tailer :=
  { t with offsets := fun f => if live f then t.offsets f else none }

/-- The file to follow is `file`. -/
def follow (live : String → Bool) (file : String) (t : Tailer) : Tailer :=
  if file = t.current then t
  else
    let t :=
      if t.started then
        { t with
          offsets := Function.update t.offsets t.current t.offset
          offset := some ((t.offsets file).getD 0) }
      else t
    pruneOffsets live { t with current := file }

/-- The file has `size` bytes. -/
def stat (size : Nat) (t : Tailer) : Tailer :=
  match t.offset with
  | none => { t with offset := some size, started := true }
  | some offset => { t with offset := some (if size < offset then 0 else offset), started := true }

end Tailer

/-- Where an iteration of the loop is. -/
inductive TailPhase
  | start
  | matched
  | opening
deriving DecidableEq

/-- The files that match, the tailer, what it handed to the parser, and where the first stat found the end of its
file. -/
structure TailState where
  files : String → Option (List UInt8)
  tail : Tailer
  phase : TailPhase
  parsed : List (String × List UInt8)
  origin : Option (String × Nat)

/-- A write that appends, or makes the file; `newestMatch` with what it returns, `none` for an error; the stat; the
open that fails, and the read. -/
inductive TailAction
  | write (file : String) (data : List UInt8)
  | newestMatch (file : Option String)
  | stat
  | openFails
  | read

namespace TailState

/-- What the file has. -/
def bytes (s : TailState) (f : String) : List UInt8 := (s.files f).getD []

/-- What `newestMatch` found is followed; a path that is no glob is followed as it is. -/
def choose (isGlob : Bool) (file : Option String) (s : TailState) : TailState :=
  if isGlob then
    match file with
    | none => s
    | some file => { s with tail := s.tail.follow (fun f => (s.files f).isSome) file, phase := .matched }
  else { s with phase := .matched }

/-- The read of the new bytes. -/
def readNew (s : TailState) : TailState :=
  let offset := s.tail.offset.getD 0
  let data := consumed ((s.bytes s.tail.current).drop offset)
  { s with
    tail := { s.tail with offset := some (offset + data.length) }
    phase := .start
    parsed := s.parsed ++ (logLines data).map (s.tail.current, ·) }

/-- One step. -/
def step (isGlob : Bool) (s : TailState) : TailAction → Option TailState
  | .write f data => some { s with files := Function.update s.files f (some (s.bytes f ++ data)) }
  | .newestMatch file => if s.phase = .start then some (s.choose isGlob file) else none
  | .stat =>
    if s.phase = .matched then
      match s.files s.tail.current with
      | none => some { s with phase := .start }
      | some data =>
        let tail := s.tail.stat data.length
        let origin := if s.tail.offset = none then some (s.tail.current, data.length) else s.origin
        some { s with
          tail, origin
          phase := if tail.offset.getD 0 < data.length then .opening else .start }
    else none
  | .openFails => if s.phase = .opening then some { s with phase := .start } else none
  | .read => if s.phase = .opening then some s.readNew else none

/-- Before the loop. -/
def init (path : String) (files : String → Option (List UInt8)) : TailState :=
  ⟨files, .init path, .start, [], none⟩

/-- What the parser got of a file. -/
def parsedOf (s : TailState) (f : String) : List (List UInt8) := (s.parsed.filter (·.1 = f)).map (·.2)

/-- Where the lines of a file count from. -/
def startOf (s : TailState) (f : String) : Nat :=
  match s.origin with
  | some (g, n) => if f = g then n else 0
  | none => 0

/-- The offset that is kept for a file. -/
def position (s : TailState) (f : String) : Nat :=
  if f = s.tail.current then s.tail.offset.getD 0 else (s.tail.offsets f).getD 0

end TailState

/-! ## One file -/

/-- The line that is not complete yet is not too long. -/
def ShortRest (data : List UInt8) : Prop := (data.rtakeWhile (· ≠ lf)).length < maxPartialLine

instance (data : List UInt8) : Decidable (ShortRest data) := inferInstanceAs (Decidable (_ < _))

theorem logLines_append {t : List UInt8} (h : Whole lf t) (u : List UInt8) :
    logLines (t ++ u) = logLines t ++ logLines u := by
  rw [logLines, complete_append h, List.map_append, List.filter_append]
  rfl

theorem consumed_initial (data : List UInt8) : consumed data <+: data := by
  unfold consumed
  split
  · exact List.rdropWhile_prefix _ data
  · split
    · exact List.nil_prefix
    · exact List.prefix_rfl

theorem consumed_eq {data : List UInt8} (h : ShortRest data) : consumed data = data.rdropWhile (· ≠ lf) := by
  unfold consumed
  split
  · rfl
  · rename_i hlf
    have hall : ∀ c ∈ data, decide (c ≠ lf) = true := by
      intro c hc
      rw [decide_eq_true_eq]
      rintro rfl
      exact hlf hc
    rw [ShortRest, List.rtakeWhile_eq_self_iff.mpr hall] at h
    rw [if_pos h, List.rdropWhile_eq_nil_iff.mpr hall]

theorem ShortRest.drop {data : List UInt8} (h : ShortRest data) (n : Nat) : ShortRest (data.drop n) :=
  lt_of_le_of_lt (rtakeWhile_drop_length _ data n) h

/-- Of the bytes from `start` on, those up to `position` are whole lines, and they are what was read. -/
structure Accounted (data : List UInt8) (start position : Nat) (lines : List (List UInt8)) : Prop where
  after : start ≤ position
  within : position ≤ data.length
  whole : Whole lf ((data.drop start).take (position - start))
  lines : lines = logLines ((data.drop start).take (position - start))

namespace Accounted
variable {data : List UInt8} {start position : Nat} {ls : List (List UInt8)}

theorem init {n : Nat} (h : n ≤ data.length) : Accounted data n n [] where
  after := le_rfl
  within := h
  whole := by
    rw [Nat.sub_self, List.take_zero]
    exact .inl rfl
  lines := by
    rw [Nat.sub_self, List.take_zero]
    rfl

theorem append (h : Accounted data start position ls) (more : List UInt8) :
    Accounted (data ++ more) start position ls := by
  obtain ⟨hafter, hwithin, hwhole, hlines⟩ := h
  have hslice : ((data ++ more).drop start).take (position - start) = (data.drop start).take (position - start) := by
    rw [List.drop_append_of_le_length (hafter.trans hwithin), List.take_append_of_le_length]
    rw [List.length_drop]
    omega
  refine ⟨hafter, hwithin.trans ?_, ?_, ?_⟩
  · rw [List.length_append]
    omega
  · rwa [hslice]
  · rwa [hslice]

theorem total (h : Accounted data start position ls) :
    ls ++ logLines (data.drop position) = logLines (data.drop start) := by
  obtain ⟨hafter, hwithin, hwhole, hlines⟩ := h
  rw [hlines, ← logLines_append hwhole]
  congr 1
  calc (data.drop start).take (position - start) ++ data.drop position
      = (data.drop start).take (position - start) ++ (data.drop start).drop (position - start) := by
        rw [List.drop_drop, Nat.add_sub_cancel' hafter]
    _ = data.drop start := List.take_append_drop _ _

theorem read (h : Accounted data start position ls) (hshort : ShortRest data) :
    Accounted data start (position + (consumed (data.drop position)).length)
      (ls ++ logLines (consumed (data.drop position))) := by
  obtain ⟨hafter, hwithin, hwhole, hlines⟩ := h
  obtain ⟨rest, hrest⟩ := consumed_initial (data.drop position)
  have hlength : (consumed (data.drop position)).length ≤ data.length - position := by
    rw [← List.length_drop]
    exact (consumed_initial _).length_le
  have hslice : (data.drop start).take (position + (consumed (data.drop position)).length - start) =
      (data.drop start).take (position - start) ++ consumed (data.drop position) := by
    rw [show position + (consumed (data.drop position)).length - start =
      (position - start) + (consumed (data.drop position)).length by omega, List.take_add, List.drop_drop,
      Nat.add_sub_cancel' hafter]
    congr 1
    exact List.prefix_iff_eq_take.mp (consumed_initial _) |>.symm
  have hconsumed : Whole lf (consumed (data.drop position)) := by
    rw [consumed_eq (hshort.drop position)]
    exact whole_rdropWhile _
  refine ⟨by omega, by omega, ?_, ?_⟩
  · rw [hslice]
    exact hwhole.append hconsumed
  · rw [hslice, logLines_append hwhole, hlines]

theorem read_rest (hshort : ShortRest data) :
    logLines (data.drop (position + (consumed (data.drop position)).length)) = [] := by
  rw [← List.drop_drop, consumed_eq (hshort.drop position), drop_rdropWhile_length, logLines,
    complete_of_not_mem not_mem_rtakeWhile]
  rfl

end Accounted
/-! ## The run -/

namespace TailState
variable {isGlob : Bool} {s s' : TailState} {f : String}

/-- The writer leaves no line of `maxPartialLine` bytes without its newline. -/
def ShortWrite (s : TailState) : TailAction → Prop
  | .write f data => ShortRest (s.bytes f ++ data)
  | _ => True

instance (s : TailState) (a : TailAction) : Decidable (ShortWrite s a) :=
  match a with
  | .write f data => inferInstanceAs (Decidable (ShortRest (s.bytes f ++ data)))
  | .newestMatch _ | .stat | .openFails | .read => .isTrue trivial

/-- What the loop keeps. -/
structure Inv (s : TailState) : Prop where
  short : ∀ f, ShortRest (s.bytes f)
  accounted : ∀ f, Accounted (s.bytes f) (s.startOf f) (s.position f) (s.parsedOf f)
  started : s.tail.started = s.tail.offset.isSome
  fresh : s.tail.offset = none → (∀ f, s.tail.offsets f = none) ∧ s.origin = none ∧ s.parsed = []
  opening : s.phase = .opening → s.tail.offset.isSome

theorem inv_init {path : String} {files : String → Option (List UInt8)}
    (hshort : ∀ f, ShortRest ((files f).getD [])) : Inv (init path files) where
  short := hshort
  accounted f := by
    have hposition : (init path files).position f = 0 := by
      unfold position
      split <;> rfl
    rw [hposition]
    exact .init (Nat.zero_le _)
  started := rfl
  fresh _ := ⟨fun _ => rfl, rfl, rfl⟩
  opening h := by contradiction

theorem position_fresh (h : Inv s) (hoffset : s.tail.offset = none) (f : String) : s.position f = 0 := by
  unfold position
  rw [hoffset, (h.fresh hoffset).1 f]
  split <;> rfl

theorem position_follow (h : Inv s) (file : String) (phase : TailPhase) (f : String) :
    position { s with tail := s.tail.follow (fun f => (s.files f).isSome) file, phase } f = s.position f := by
  unfold Tailer.follow
  split
  · rfl
  · rename_i hne
    by_cases hstarted : s.tail.started = true
    · rw [if_pos hstarted]
      show (if f = file then _ else Option.getD (if (s.files f).isSome = true then
        Function.update s.tail.offsets s.tail.current s.tail.offset f else none) 0) = _
      by_cases hf : f = file
      · rw [if_pos hf, position, hf, if_neg hne]
        rfl
      · rw [if_neg hf]
        by_cases hlive : (s.files f).isSome = true
        · rw [if_pos hlive, position]
          by_cases hcurrent : f = s.tail.current
          · rw [if_pos hcurrent, hcurrent, Function.update_self]
          · rw [if_neg hcurrent, Function.update_of_ne hcurrent]
        · have hwithin := (h.accounted f).within
          rw [bytes, Option.not_isSome_iff_eq_none.mp hlive] at hwithin
          rw [if_neg hlive, Nat.le_zero.mp hwithin]
          rfl
    · rw [if_neg hstarted]
      rw [h.started, Option.not_isSome_iff_eq_none] at hstarted
      rw [position_fresh h hstarted]
      show (if f = file then s.tail.offset.getD 0 else Option.getD (if _ then s.tail.offsets f else none) 0) = 0
      rw [hstarted, (h.fresh hstarted).1 f, ite_self]
      split <;> rfl

theorem follow_started (h : Inv s) (live : String → Bool) (file : String) :
    (s.tail.follow live file).started = (s.tail.follow live file).offset.isSome := by
  unfold Tailer.follow
  split
  · exact h.started
  · by_cases hstarted : s.tail.started = true
    · rw [if_pos hstarted]
      exact hstarted
    · rw [if_neg hstarted]
      exact h.started

theorem follow_fresh (h : Inv s) {live : String → Bool} {file : String}
    (hoffset : (s.tail.follow live file).offset = none) :
    s.tail.offset = none ∧ ∀ f, (s.tail.follow live file).offsets f = none := by
  unfold Tailer.follow at hoffset ⊢
  split at hoffset
  · rename_i heq
    rw [if_pos heq]
    exact ⟨hoffset, (h.fresh hoffset).1⟩
  · rename_i hne
    rw [if_neg hne]
    by_cases hstarted : s.tail.started = true
    · rw [if_pos hstarted] at hoffset
      contradiction
    · rw [if_neg hstarted] at hoffset ⊢
      refine ⟨hoffset, fun f => ?_⟩
      show (if _ then s.tail.offsets f else none) = none
      rw [(h.fresh hoffset).1 f, ite_self]

theorem bytes_write (s : TailState) (g : String) (data : List UInt8) (f : String) :
    bytes { s with files := Function.update s.files g (some (s.bytes g ++ data)) } f =
      if f = g then s.bytes g ++ data else s.bytes f := by
  unfold bytes
  dsimp only
  split
  · rename_i hf
    rw [hf, Function.update_self, Option.getD_some]
  · rename_i hf
    rw [Function.update_of_ne hf]

theorem inv_write (h : Inv s) (g : String) {data : List UInt8} (hok : ShortRest (s.bytes g ++ data)) :
    Inv { s with files := Function.update s.files g (some (s.bytes g ++ data)) } := by
  refine ⟨fun f => ?_, fun f => ?_, h.started, h.fresh, h.opening⟩
  · rw [bytes_write]
    split
    · exact hok
    · exact h.short f
  · rw [bytes_write]
    split
    · rename_i hf
      rw [← hf]
      exact (h.accounted f).append data
    · exact h.accounted f

theorem inv_stat (h : Inv s) {data : List UInt8} (hdata : s.files s.tail.current = some data) (phase : TailPhase) :
    Inv { s with
      tail := s.tail.stat data.length
      origin := if s.tail.offset = none then some (s.tail.current, data.length) else s.origin
      phase } := by
  have hbytes : s.bytes s.tail.current = data := by rw [bytes, hdata, Option.getD_some]
  cases hoffset : s.tail.offset with
  | none =>
    obtain ⟨hoffsets, -, hparsed⟩ := h.fresh hoffset
    have hstat : s.tail.stat data.length = { s.tail with offset := some data.length, started := true } := by
      rw [Tailer.stat, hoffset]
    rw [hstat, if_pos rfl]
    refine ⟨h.short, fun f => ?_, rfl, fun h => by contradiction, fun _ => rfl⟩
    rw [parsedOf, hparsed, startOf, position]
    dsimp only
    rw [hoffsets]
    split
    · rename_i hf
      rw [hf]
      exact .init (le_of_eq (congrArg List.length hbytes.symm))
    · exact .init (Nat.zero_le _)
  | some offset =>
    have hposition : s.position s.tail.current = offset := by
      rw [position, if_pos rfl, hoffset, Option.getD_some]
    have hwithin := (h.accounted s.tail.current).within
    rw [hposition, hbytes] at hwithin
    have hstat : s.tail.stat data.length = { s.tail with offset := some offset, started := true } := by
      rw [Tailer.stat, hoffset]
      dsimp only
      rw [if_neg (by omega)]
    rw [hstat, if_neg (by rintro ⟨⟩)]
    refine ⟨h.short, fun f => ?_, rfl, fun h => by contradiction, fun _ => rfl⟩
    have hsame := h.accounted f
    rw [position, hoffset] at hsame
    exact hsame

theorem parsedOf_readNew (s : TailState) (f : String) : s.readNew.parsedOf f = s.parsedOf f ++
    if f = s.tail.current then logLines (consumed ((s.bytes s.tail.current).drop (s.tail.offset.getD 0))) else [] := by
  have hnew : ∀ ls : List (List UInt8), ((ls.map (s.tail.current, ·)).filter (·.1 = f)).map (·.2) =
      if f = s.tail.current then ls else [] := by
    intro ls
    split
    · rename_i hf
      rw [List.filter_eq_self.mpr, List.map_map]
      · exact List.map_id ls
      · intro x hx
        obtain ⟨l, -, rfl⟩ := List.mem_map.mp hx
        exact decide_eq_true hf.symm
    · rename_i hf
      rw [List.filter_eq_nil_iff.mpr, List.map_nil]
      intro x hx
      obtain ⟨l, -, rfl⟩ := List.mem_map.mp hx
      rw [decide_eq_true_eq]
      exact Ne.symm hf
  rw [parsedOf, readNew, List.filter_append, List.map_append, hnew]
  rfl

theorem position_readNew (s : TailState) (f : String) : s.readNew.position f = s.position f +
    if f = s.tail.current then (consumed ((s.bytes s.tail.current).drop (s.tail.offset.getD 0))).length else 0 := by
  rw [position, position, readNew]
  dsimp only
  split
  · rfl
  · rfl

theorem inv_readNew (h : Inv s) (hopening : s.tail.offset.isSome) : Inv s.readNew := by
  refine ⟨h.short, fun f => ?_, h.started.trans hopening, fun h => by contradiction, fun h => by contradiction⟩
  rw [parsedOf_readNew, position_readNew]
  have hold := h.accounted f
  split
  · rename_i hf
    have hread := hold.read (h.short f)
    rwa [position, if_pos hf, hf] at hread ⊢
  · rw [List.append_nil]
    exact hold

theorem readNew_rest (h : Inv s) :
    logLines ((s.readNew.bytes s.tail.current).drop (s.readNew.position s.tail.current)) = [] := by
  rw [position_readNew, if_pos rfl, position, if_pos rfl]
  exact Accounted.read_rest (h.short s.tail.current)

theorem inv_choose (h : Inv s) (isGlob : Bool) (file : Option String) : Inv (s.choose isGlob file) := by
  unfold choose
  split
  · split
    · exact h
    · rename_i file
      refine ⟨h.short, fun f => ?_, follow_started h _ file, fun hoffset => ?_, fun h => by contradiction⟩
      · rw [position_follow h file .matched f]
        exact h.accounted f
      · obtain ⟨hold, hoffsets⟩ := follow_fresh h hoffset
        exact ⟨hoffsets, (h.fresh hold).2⟩
  · exact ⟨h.short, h.accounted, h.started, h.fresh, fun h => by contradiction⟩

theorem inv_step {a : TailAction} (h : Inv s) (hok : ShortWrite s a) (hs : step isGlob s a = some s') : Inv s' := by
  cases a with
  | write f data =>
    obtain rfl := Option.some.inj hs
    exact inv_write h f hok
  | newestMatch file =>
    rw [step] at hs
    split at hs
    · rw [← Option.some.inj hs]
      exact inv_choose h isGlob file
    · contradiction
  | stat =>
    rw [step] at hs
    split at hs
    · split at hs
      · obtain rfl := Option.some.inj hs
        exact ⟨h.short, h.accounted, h.started, h.fresh, fun hphase => by contradiction⟩
      · rename_i data hdata
        rw [← Option.some.inj hs]
        exact inv_stat h hdata _
    · contradiction
  | openFails =>
    rw [step] at hs
    split at hs
    · obtain rfl := Option.some.inj hs
      exact ⟨h.short, h.accounted, h.started, h.fresh, fun hphase => by contradiction⟩
    · contradiction
  | read =>
    by_cases hphase : s.phase = .opening
    · rw [step, if_pos hphase] at hs
      rw [← Option.some.inj hs]
      exact inv_readNew h (h.opening hphase)
    · rw [step, if_neg hphase] at hs
      contradiction

end TailState

open TailState Runs

/-- Of each file the parser got its lines in order, each once, up to those behind its position; after a read of a file
none is left. -/
theorem tailFile_reads_once {isGlob : Bool} {path : String} {files : String → Option (List UInt8)}
    {as : List TailAction} {s : TailState} (hshort : ∀ f, ShortRest ((files f).getD []))
    (hok : StepsMeet (step isGlob) ShortWrite (init path files) as)
    (h : run (step isGlob) (init path files) as = some s) :
    (∀ f, s.parsedOf f ++ logLines ((s.bytes f).drop (s.position f)) = logLines ((s.bytes f).drop (s.startOf f))) ∧
    ∀ s', step isGlob s .read = some s' →
      s'.parsedOf s'.tail.current = logLines ((s'.bytes s'.tail.current).drop (s'.startOf s'.tail.current)) := by
  have hinv : Inv s := run_invariant (fun s a s' h hok hs => inv_step h hok hs) (inv_init hshort) hok h
  refine ⟨fun f => (hinv.accounted f).total, fun s' hs' => ?_⟩
  have htotal := ((inv_step hinv (a := .read) trivial hs').accounted s'.tail.current).total
  by_cases hphase : s.phase = .opening
  · rw [step, if_pos hphase] at hs'
    obtain rfl := Option.some.inj hs'
    rwa [show s.readNew.tail.current = s.tail.current from rfl, readNew_rest hinv, List.append_nil] at htotal
  · rw [step, if_neg hphase] at hs'
    contradiction

/-- A log with a line of before. -/
def oneLog (f : String) : Option (List UInt8) := if f = "a" then some [120, lf] else none

/-- A line that comes in two writes, and a rotation. -/
def rotation : List TailAction :=
  [.newestMatch (some "a"), .stat, .write "a" [121], .newestMatch (some "a"), .stat, .read, .write "a" [121, cr, lf],
    .newestMatch (some "a"), .stat, .write "b" [122, lf], .read, .newestMatch (some "b"), .stat]

theorem tailFile_reads_once_rotation : ∃ s, run (step true) (init "*" oneLog) rotation = some s ∧
    s.parsedOf "a" ++ logLines ((s.bytes "a").drop (s.position "a")) =
      logLines ((s.bytes "a").drop (s.startOf "a")) := by
  have hrun : (run (step true) (init "*" oneLog) rotation).isSome = true := by decide
  obtain ⟨s, hs⟩ := Option.isSome_iff_exists.mp hrun
  have hshort : ∀ f, ShortRest ((oneLog f).getD []) := by
    intro f
    unfold oneLog
    split
    · decide
    · decide
  exact ⟨s, hs, (tailFile_reads_once hshort (by decide) hs).1 "a"⟩

end Obliguard.Agent
