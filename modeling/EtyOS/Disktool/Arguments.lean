import Mathlib.Data.List.TakeWhile
import EtyOS.Disktool.Shell
import EtyOS.Disktool.Tables

/-!
# Lines with a number that is none

The number of `delpart`, `selectdisk` and `newpart` is what the leading digits
denote modulo 2^32, so a text that is no number counts as one, often as 0.
Whether such a line does harm depends on what that number means in the present
state.
-/

namespace EtyOS

open Library

/-- Nothing is written to a disk, and the selection stays. -/
def Harmless (s s' : Machine) : Prop :=
  (∀ e ∈ s.newEvents s', ¬e.IsWrite) ∧ s'.currentDisk = s.currentDisk

/-- The command finds nothing to write and nothing else to select: a creation
cannot read the MBR or finds no free slot, a deletion cannot read the MBR or
finds an empty entry, and a selection is what it was. -/
structure System.Quiet (t : System) (k : Command) : Prop where
  creation : ∀ r, t.creation k = some r → t.disk.next.abort = true ∨
    (t.disk.media t.selected.controller t.selected.drive 0).freeSlot = none
  deletion : ∀ i, t.deletion k = some i → t.disk.next.abort = true ∨
    (t.disk.media t.selected.controller t.selected.drive 0).slotType i = 0
  selection : ∀ i, t.selection k = some i → i = t.config.currentDisk

section Commands

variable {s s' : Machine} {k : Command} {rc : ℤ}

theorem System.step_currentDisk_iff (t : System) (k : Command) :
    (t.step k).2.config.currentDisk = t.config.currentDisk ↔
      ∀ i, t.selection k = some i → i = t.config.currentDisk := by
  rw [System.step_config]
  cases hselect : t.selection k with
  | some i => simp
  | none =>
    dsimp only
    split <;> simp

theorem System.step_isWrite_iff (t : System) (k : Command) :
    ∃ evs, (t.step k).2.disk.trace = t.disk.trace ++ evs ∧ ((∀ e ∈ evs, ¬e.IsWrite) ↔
      (∀ r, t.creation k = some r → t.disk.next.abort = true ∨
        (t.disk.media t.selected.controller t.selected.drive 0).freeSlot = none) ∧
      ∀ i, t.deletion k = some i → t.disk.next.abort = true ∨
        (t.disk.media t.selected.controller t.selected.drive 0).slotType i = 0) := by
  cases t.step_cases k with
  | creation fs n hcreate hdelete hdisk =>
    rw [hdisk, hcreate, hdelete]
    cases t.disk.create_cases fs t.selected.controller t.selected.drive n with
    | unreadable hread htrace _ => exact ⟨_, htrace, by simp [Event.IsWrite, hread]⟩
    | full hread hslot htrace _ => exact ⟨_, htrace, by simp [Event.IsWrite, hslot]⟩
    | unwritten i hread hslot _ htrace =>
      exact ⟨_, htrace, by simp [Event.IsWrite, hread, hslot]⟩
    | formatted i evs result hread hslot _ _ _ _ htrace _ =>
      exact ⟨_, htrace, by simp [Event.IsWrite, hread, hslot]⟩
  | deletion i hcreate hdelete hdisk =>
    rw [hdisk, hcreate, hdelete]
    cases t.disk.delete_cases t.selected.controller t.selected.drive i with
    | unreadable hread htrace _ => exact ⟨_, htrace, by simp [Event.IsWrite, hread]⟩
    | missing hread htype htrace _ => exact ⟨_, htrace, by simp [Event.IsWrite, htype]⟩
    | cleared hread htype htrace _ =>
      exact ⟨_, htrace, by simp [Event.IsWrite, hread, htype]⟩
  | quiet evs hcreate hdelete _ htrace hreads =>
    rw [hcreate, hdelete]
    exact ⟨evs, htrace, iff_of_true hreads (by simp)⟩

/-- What has the effect of a command is harmless exactly when the command is quiet. -/
theorem harmless_iff (hsystem : s'.system = (s.system.step k).2) :
    Harmless s s' ↔ s.system.Quiet k := by
  obtain ⟨evs, htrace, hwrites⟩ := s.system.step_isWrite_iff k
  have hdisk : s'.disk = (s.system.step k).2.disk := congrArg System.disk hsystem
  have hevents : s.newEvents s' = evs := Machine.newEvents_of_append (by rw [hdisk, htrace]; rfl)
  have hcurrent : s'.currentDisk = (s.system.step k).2.config.currentDisk :=
    congrArg (fun t : System => t.config.currentDisk) hsystem
  have hselect := s.system.step_currentDisk_iff k
  rw [Harmless, hevents, hwrites, hcurrent]
  constructor
  · rintro ⟨⟨hcreation, hdeletion⟩, hkept⟩
    exact ⟨hcreation, hdeletion, hselect.mp hkept⟩
  · rintro ⟨hcreation, hdeletion, hselection⟩
    exact ⟨⟨hcreation, hdeletion⟩, hselect.mpr hselection⟩

end Commands

/-- A line with a number as its argument, whatever the text of the number is. -/
inductive NumericLine where
  | delpart (argument : CString)
  | selectdisk (argument : CString)
  | newpart (argument : CString) (hword : 32 ∉ argument.bytes) (fsName : Option CString)

namespace NumericLine

/-- The text that should be a number. -/
def argument : NumericLine → CString
  | delpart a => a
  | selectdisk a => a
  | newpart a _ _ => a

/-- The text behind the command's name and its space. -/
def rest : NumericLine → List UInt8
  | delpart a => a.bytes
  | selectdisk a => a.bytes
  | newpart a _ none => a.bytes
  | newpart a _ (some fsName) => a.bytes ++ 32 :: fsName.bytes

def name : NumericLine → List UInt8
  | delpart _ => chars "delpart "
  | selectdisk _ => chars "selectdisk "
  | newpart _ _ _ => chars "newpart "

theorem zero_notMem (n : NumericLine) : 0 ∉ n.name ++ n.rest := by
  have hrest : 0 ∉ n.rest := by
    cases n with
    | delpart a => exact a.noNul
    | selectdisk a => exact a.noNul
    | newpart a _ fsName =>
      cases fsName with
      | none => exact a.noNul
      | some fsName => simp [rest, a.noNul, fsName.noNul]
  have hname : 0 ∉ n.name := by cases n <;> simp only [name] <;> decide
  simp [hname, hrest]

def line (n : NumericLine) : CString := ⟨n.name ++ n.rest, n.zero_notMem⟩

def command : NumericLine → Command
  | delpart a => .deletePartition (cInt (number a.bytes))
  | selectdisk a => .selectDisk (cInt (number a.bytes))
  | newpart a _ none => .createPartitionMb (number a.bytes) .fat32
  | newpart a _ (some fsName) => .createPartitionMb (number a.bytes) (fsNamed fsName.bytes)

section Dispatch

variable {p q a : List UInt8}

/-- Names that begin with different letters are not confused. -/
theorem append_ne_of_head (hp : p ≠ []) (h : p.head? ≠ q.head?) : p ++ a ≠ q := by
  intro heq
  rw [← heq, List.head?_append_of_ne_nil _ hp] at h
  exact h rfl

theorem not_prefix_of_head (hp : p ≠ []) (hq : q ≠ []) (h : p.head? ≠ q.head?) :
    ¬q <+: p ++ a := by
  rintro ⟨l, hl⟩
  have hhead := congrArg List.head? hl
  rw [List.head?_append_of_ne_nil _ hp, List.head?_append_of_ne_nil _ hq] at hhead
  exact h hhead.symm

theorem delpart_command {line : CString} (h : line.bytes = chars "delpart " ++ a) :
    line.command = some (.deletePartition (cInt (number a))) := by
  have hdrop : (chars "delpart " ++ a).drop 8 = a := List.drop_left' rfl
  rw [CString.command, h, if_neg (append_ne_of_head (by decide) (by decide)),
    if_neg (append_ne_of_head (by decide) (by decide)),
    if_neg (append_ne_of_head (by decide) (by decide)),
    if_neg (not_prefix_of_head (by decide) (by decide) (by decide)),
    if_neg (not_prefix_of_head (by decide) (by decide) (by decide)),
    if_neg (not_prefix_of_head (by decide) (by decide) (by decide)),
    if_pos (List.prefix_append _ _), hdrop]

theorem selectdisk_command {line : CString} (h : line.bytes = chars "selectdisk " ++ a) :
    line.command = some (.selectDisk (cInt (number a))) := by
  have hdrop : (chars "selectdisk " ++ a).drop 11 = a := List.drop_left' rfl
  rw [CString.command, h, if_neg (append_ne_of_head (by decide) (by decide)),
    if_neg (append_ne_of_head (by decide) (by decide)),
    if_neg (append_ne_of_head (by decide) (by decide)),
    if_neg (not_prefix_of_head (by decide) (by decide) (by decide)),
    if_pos (List.prefix_append _ _), hdrop]

theorem newpart_command {line : CString} (h : line.bytes = chars "newpart " ++ a) :
    line.command =
      some (.createPartitionMb (number (a.takeWhile (· ≠ 32))) (secondWord a)) := by
  have hdrop : (chars "newpart " ++ a).drop 8 = a := List.drop_left' rfl
  rw [CString.command, h, if_neg (append_ne_of_head (by decide) (by decide)),
    if_neg (append_ne_of_head (by decide) (by decide)),
    if_neg (append_ne_of_head (by decide) (by decide)),
    if_neg (not_prefix_of_head (by decide) (by decide) (by decide)),
    if_neg (not_prefix_of_head (by decide) (by decide) (by decide)),
    if_pos (List.prefix_append _ _), hdrop]

end Dispatch

/-- The line makes the shell run its command. -/
theorem line_command (n : NumericLine) : n.line.command = some n.command := by
  cases n with
  | delpart a => exact delpart_command rfl
  | selectdisk a => exact selectdisk_command rfl
  | newpart a hword fsName =>
    have hkeep : ∀ c ∈ a.bytes, decide (c ≠ 32) = true := fun c hc =>
      decide_eq_true fun h => hword (h ▸ hc)
    rw [newpart_command (a := rest (newpart a hword fsName)) rfl]
    cases fsName with
    | none =>
      have htake : a.bytes.takeWhile (· ≠ 32) = a.bytes := List.takeWhile_eq_self_iff.mpr hkeep
      have hdrop : a.bytes.dropWhile (· ≠ 32) = [] := List.dropWhile_eq_nil_iff.mpr hkeep
      rw [rest, htake, secondWord, hdrop]
      rfl
    | some fsName =>
      have htake : (a.bytes ++ 32 :: fsName.bytes).takeWhile (· ≠ 32) = a.bytes := by
        rw [List.takeWhile_append_of_pos hkeep]
        simp
      have hdrop : (a.bytes ++ 32 :: fsName.bytes).dropWhile (· ≠ 32) = 32 :: fsName.bytes := by
        rw [List.dropWhile_append_of_pos hkeep]
        simp
      rw [rest, htake, secondWord, hdrop]
      rfl

theorem line_ne_exit (n : NumericLine) : n.line.bytes ≠ chars "exit" := by
  cases n <;> refine append_ne_of_head ?_ ?_ <;> (dsimp only [name]; decide)

end NumericLine

/-- A line with a number comes back; it is harmless exactly when the command
that the leading digits make of it is quiet. -/
theorem numericLine_harmless_iff {s : Machine} (hs : Typed s) (color : UInt8) (n : NumericLine) :
    ∃ s', (disktoolLine color n.line).run s = some (true, s') ∧
      (Harmless s s' ↔ s.system.Quiet n.command) := by
  obtain ⟨s', hrun, hsystem, -⟩ := disktoolLine_does color n.line s hs.ready
  have hexit : decide (n.line.bytes ≠ chars "exit") = true := decide_eq_true n.line_ne_exit
  rw [System.turn, hexit] at hrun
  refine ⟨s', hrun, harmless_iff ?_⟩
  rw [hsystem, System.turn, System.line, n.line_command]

section Examples

def updateLine : CString := ⟨chars "update", by decide⟩

def selectFirstLine : CString := ⟨chars "selectdisk 0", by decide⟩

/-- `newpart x`: a word that is no number. -/
def wordLine : NumericLine := .newpart ⟨chars "x", by decide⟩ (by decide) none

/-- The lines `update` and `selectdisk 0` on the machine with one empty disk of 64 MB. -/
theorem exists_typed :
    ∃ s, Run (disktoolLine 0) (fun _ _ => True) (blankMachine primaryMaster)
        [updateLine, selectFirstLine] s ∧ Typed s ∧
      s.disk = (blankMachine primaryMaster).disk ∧ s.currentDisk = 0 ∧ s.selected.sizeMb = 64 := by
  have hboot := blankMachine_booted primaryMaster
  obtain ⟨s, hrun, hsystem⟩ := Run.exists_of_simulates (disktoolLine_does 0) hboot.ready
    [updateLine, selectFirstLine]
  have hlines : s.system = (((blankMachine primaryMaster).system.step .update).2.step
      (.selectDisk 0)).2 := by
    have hupdate : updateLine.command = some .update := rfl
    have hselect : selectFirstLine.command = some (.selectDisk 0) := rfl
    rw [hsystem]
    simp only [List.foldl_cons, List.foldl_nil, System.turn, System.line, hupdate, hselect]
  have hselected : s.selected = s.system.selected := rfl
  refine ⟨s, hrun, ⟨_, 0, _, hboot, hrun⟩, congrArg System.disk hlines,
    congrArg (fun t : System => t.config.currentDisk) hlines, ?_⟩
  rw [hselected, hlines]
  rfl

theorem numericLine_harmless_typed :
    ∃ s, Run (disktoolLine 0) (fun _ _ => True) (blankMachine primaryMaster)
        [updateLine, selectFirstLine] s ∧
      ∃ s', (disktoolLine 0 wordLine.line).run s = some (true, s') ∧
        (Harmless s s' ↔ s.system.Quiet wordLine.command) := by
  obtain ⟨s, hrun, hs, -⟩ := exists_typed
  exact ⟨s, hrun, numericLine_harmless_iff hs 0 wordLine⟩

/-- The line creates an entry of no sectors. -/
theorem wordLine_writes :
    ¬IsNumeral wordLine.argument.bytes ∧
      ∃ s, Run (disktoolLine 0) (fun _ _ => True) (blankMachine primaryMaster)
          [updateLine, selectFirstLine] s ∧
        ∃ s', (disktoolLine 0 wordLine.line).run s = some (true, s') ∧ ¬Harmless s s' := by
  obtain ⟨s, htyped, hs, hdisk, hcurrent, hsize⟩ := exists_typed
  refine ⟨fun h => absurd (h.2.1 120 (by decide)) (by decide), s, htyped, ?_⟩
  obtain ⟨s', hrun, hsystem, -⟩ := disktoolLine_does 0 wordLine.line s hs.ready
  have hexit : decide (wordLine.line.bytes ≠ chars "exit") = true := by decide
  rw [System.turn, hexit] at hrun
  rw [System.turn, System.line, wordLine.line_command] at hsystem
  refine ⟨s', hrun, ?_⟩
  intro hharmless
  have hquiet := (harmless_iff hsystem).mp hharmless
  have hcreate : s.system.creation wordLine.command = some (.fat32, 0) :=
    if_neg (show ¬(s.currentDisk = -1 ∨ (number (chars "x")).toUInt64 > s.selected.sizeMb) by
      rw [hcurrent, hsize]
      decide)
  have hslot : (s.disk.media s.selected.controller s.selected.drive 0).freeSlot = some 0 := by
    rw [hdisk]
    exact (by decide : blankSector.freeSlot = some 0)
  have hread : s.disk.next.abort = false := by
    rw [hdisk]
    rfl
  rcases hquiet.creation _ hcreate with habort | hfull
  · exact absurd (hread.symm.trans habort) (by decide)
  · exact absurd (hslot.symm.trans hfull) (by decide)

end Examples

end EtyOS
