import EtyOS.Disktool.Commands

/-!
# The selection and the disk behind it

The selection is an index into a table that every scan rebuilds. It keeps
meaning the same drive exactly as long as, at each scan, that drive answers and
as many drives before it answer as the index says.
-/

namespace EtyOS

open Library

/-- How many of the first `n` positions answer the next scan. -/
def Config.answering (g : Config) (n : ℕ) : ℕ :=
  (List.range n).countP fun j => (g.identify (g.scanned + j)).isSome

/-- The index stands for the drive `d` on channel `c`. -/
def Config.Selects (g : Config) (c d : Fin 2) : Prop :=
  g.currentDisk < g.numDisks ∧ (g.availableDisks g.currentDisk.toNat).controller = c ∧
    (g.availableDisks g.currentDisk.toNat).drive = d

section Scan

variable (g : Config)

theorem Config.entryOf_length (n : ℕ) (c d : Fin 2) :
    (g.entryOf n c d).toList.length = if (g.identify (g.scanned + n)).isSome then 1 else 0 := by
  unfold entryOf
  cases g.identify (g.scanned + n) <;> rfl

theorem Config.answering_succ (n : ℕ) :
    g.answering (n + 1) = g.answering n + if (g.identify (g.scanned + n)).isSome then 1 else 0 := by
  simp [answering, List.range_succ, List.countP_append, List.countP_singleton]

/-- The entry of a position stands behind those of the positions before it. -/
theorem Config.found_split (c d : Fin 2) :
    ∃ l l', g.found = l ++ (g.entryOf (2 * c.val + d.val) c d).toList ++ l' ∧
      l.length = g.answering (2 * c.val + d.val) := by
  have hlength := g.entryOf_length
  have hzero : g.answering 0 = 0 := rfl
  have hsucc := g.answering_succ
  fin_cases c <;> fin_cases d
  · refine ⟨[], (g.entryOf 1 0 1).toList ++ (g.entryOf 2 1 0).toList ++ (g.entryOf 3 1 1).toList,
      ?_, rfl⟩
    simp [found]
  · refine ⟨(g.entryOf 0 0 0).toList, (g.entryOf 2 1 0).toList ++ (g.entryOf 3 1 1).toList, ?_, ?_⟩
    · simp [found]
    · simp [hlength, hsucc, hzero]
  · refine ⟨(g.entryOf 0 0 0).toList ++ (g.entryOf 1 0 1).toList, (g.entryOf 3 1 1).toList, ?_, ?_⟩
    · simp [found]
    · simp [hlength, hsucc, hzero]
  · refine ⟨(g.entryOf 0 0 0).toList ++ (g.entryOf 1 0 1).toList ++ (g.entryOf 2 1 0).toList, [],
      ?_, ?_⟩
    · simp [found]
    · simp [hlength, hsucc, hzero]
      omega

/-- No position is entered twice. -/
theorem Config.found_nodup : (g.found.map fun disk => (disk.controller, disk.drive)).Nodup := by
  have hentry : ∀ n c d, ((g.entryOf n c d).toList.map fun disk =>
      (disk.controller, disk.drive)).Sublist [(c, d)] := by
    intro n c d
    unfold entryOf
    cases g.identify (g.scanned + n) with
    | none => simp
    | some a => exact List.Sublist.refl _
  have hall : (g.found.map fun disk => (disk.controller, disk.drive)).Sublist
      ([(0, 0)] ++ [(0, 1)] ++ [(1, 0)] ++ [(1, 1)]) := by
    simp only [found, List.map_append]
    exact (((hentry 0 0 0).append (hentry 1 0 1)).append (hentry 2 1 0)).append (hentry 3 1 1)
  exact hall.nodup (by decide)

/-- After a scan the index stands for a given drive exactly when that drive
answered, behind as many others as the index says. -/
theorem Config.rescan_selects_iff (hcurrent : 0 ≤ g.currentDisk) (c d : Fin 2) :
    g.rescan.Selects c d ↔ (g.identify (g.scanned + (2 * c.val + d.val))).isSome ∧
      g.answering (2 * c.val + d.val) = g.currentDisk.toNat := by
  rw [Selects, g.rescan_currentDisk, g.rescan_numDisks]
  constructor
  · rintro ⟨hlt, hc, hd⟩
    have hindex : g.currentDisk.toNat < g.found.length := by omega
    rw [g.rescan_availableDisks, List.getElem?_eq_getElem hindex, Option.getD_some] at hc hd
    obtain ⟨a, hanswer, -⟩ := mem_found (List.getElem_mem hindex)
    rw [hc, hd] at hanswer
    refine ⟨by rw [hanswer]; rfl, ?_⟩
    obtain ⟨l, l', hfound, hlength⟩ := g.found_split c d
    have hentry : (g.entryOf (2 * c.val + d.val) c d).toList =
        [diskInfo c d (identifyBuffer a.word)] := by
      rw [entryOf, hanswer]
      rfl
    rw [hentry] at hfound
    have hplace : (g.found.map fun disk => (disk.controller, disk.drive))[g.answering
        (2 * c.val + d.val)]? = some (c, d) := by
      rw [List.getElem?_map, hfound, ← hlength]
      simp [diskInfo]
    have hcurrent' : (g.found.map fun disk => (disk.controller, disk.drive))[
        g.currentDisk.toNat]? = some (c, d) := by
      rw [List.getElem?_map, List.getElem?_eq_getElem hindex, Option.map_some, hc, hd]
    exact (List.getElem?_inj (List.getElem?_eq_some_iff.mp hplace).1 g.found_nodup).mp
      (hplace.trans hcurrent'.symm)
  · rintro ⟨hanswer, hcount⟩
    obtain ⟨a, ha⟩ := Option.isSome_iff_exists.mp hanswer
    obtain ⟨l, l', hfound, hlength⟩ := g.found_split c d
    rw [entryOf, ha] at hfound
    have hentry : g.found[g.currentDisk.toNat]? = some (diskInfo c d (identifyBuffer a.word)) := by
      rw [hfound, ← hcount, ← hlength]
      simp
    have hindex := (List.getElem?_eq_some_iff.mp hentry).1
    refine ⟨by omega, ?_, ?_⟩ <;> rw [g.rescan_availableDisks, hentry] <;> rfl

end Scan

/-- A machine, and the drive that the last accepted selection chose. -/
abbrev Tracked := Machine × Fin 2 × Fin 2

/-- The drive that is chosen after a command with result `rc`. -/
def Command.chosen (k : Command) (rc : ℤ) (s' : Machine) (before : Fin 2 × Fin 2) :
    Fin 2 × Fin 2 :=
  match k with
  | .selectDisk _ => if rc = 0 then (s'.selected.controller, s'.selected.drive) else before
  | _ => before

/-- The command, with a note of what is chosen. -/
def Command.track (k : Command) : StateT Tracked Option ℤ := fun p =>
  (k.exec.run p.1).map fun r => (r.1, r.2, k.chosen r.1 r.2 p.2)

/-- Nothing is selected, or the index stands for the chosen drive. -/
def KeepsIdentity (p : Tracked) : Prop :=
  p.1.currentDisk = -1 ∨ p.1.config.Selects p.2.1 p.2.2

/-- If the command scans while a disk is selected, the chosen drive answers
behind as many others as the index says. -/
def AnswersInPlace (p : Tracked) (k : Command) : Prop :=
  p.1.currentDisk ≠ -1 → p.1.system.rescans k = true →
    (p.1.bus.identify (p.1.bus.scanned + (2 * p.2.1.val + p.2.2.val))).isSome ∧
      p.1.config.answering (2 * p.2.1.val + p.2.2.val) = p.1.currentDisk.toNat

section Runs

variable {p q : Tracked} {k : Command} {rc : ℤ}

theorem track_inversion (h : k.track.run p = some (rc, q)) :
    k.exec.run p.1 = some (rc, q.1) ∧ q.2 = k.chosen rc q.1 p.2 := by
  change (k.exec.run p.1).map _ = some (rc, q) at h
  rw [Option.map_eq_some_iff] at h
  obtain ⟨r, hr, hq⟩ := h
  obtain ⟨rfl, hrest⟩ := Prod.mk.inj hq
  rw [← hrest]
  exact ⟨hr, rfl⟩

theorem chosen_of_no_selection {t : System} (h : t.selection k = none) (s' : Machine)
    (before : Fin 2 × Fin 2) : k.chosen (t.step k).1 s' before = before := by
  cases k with
  | selectDisk i =>
    have hrange : i < 0 ∨ i ≥ t.config.numDisks := by
      by_contra hin
      simp [System.selection, hin] at h
    rw [Command.chosen, System.step, System.selectDisk, if_pos hrange]
    exact if_neg (by omega)
  | _ => rfl

theorem selection_spec {t : System} {i : ℤ} (h : t.selection k = some i) :
    k = .selectDisk i ∧ 0 ≤ i ∧ i < t.config.numDisks := by
  cases k with
  | selectDisk j =>
    simp only [System.selection] at h
    split at h
    · simp at h
    · obtain rfl := Option.some.inj h
      exact ⟨rfl, by omega, by omega⟩
  | _ => simp [System.selection] at h

/-- One command: the index goes on standing for the chosen drive exactly when
that drive answers in its place. -/
theorem keepsIdentity_step_iff (hs : Reachable p.1) (hkeeps : KeepsIdentity p)
    (htrack : k.track.run p = some (rc, q)) : KeepsIdentity q ↔ AnswersInPlace p k := by
  obtain ⟨hexec, hchosen⟩ := track_inversion htrack
  obtain ⟨hrc, -, hconfig, -⟩ := Command.exec_inversion hs.ready hexec
  rw [System.step_config] at hconfig
  cases hselect : p.1.system.selection k with
  | some i =>
    obtain ⟨rfl, hi, hlt⟩ := selection_spec hselect
    rw [hselect] at hconfig
    dsimp only at hconfig
    refine iff_of_true (Or.inr ?_) fun _ hrescan => by simp [System.rescans] at hrescan
    have hzero : rc = 0 := by
      rw [hrc, System.step, System.selectDisk, if_neg (by omega)]
    rw [hchosen, Command.chosen, if_pos hzero]
    refine ⟨?_, rfl, rfl⟩
    rw [hconfig]
    exact hlt
  | none =>
    rw [hselect] at hconfig
    dsimp only at hconfig
    rw [hrc, chosen_of_no_selection hselect] at hchosen
    have hkept : KeepsIdentity q ↔ q.1.config.currentDisk = -1 ∨
        q.1.config.Selects p.2.1 p.2.2 := by rw [← hchosen]; exact Iff.rfl
    rw [hkept, hconfig]
    by_cases hrescan : p.1.system.rescans k = true
    · rw [if_pos hrescan, Config.rescan_currentDisk]
      by_cases hcurrent : p.1.currentDisk = -1
      · exact iff_of_true (Or.inl hcurrent) fun h => absurd hcurrent h
      · have hnonneg : 0 ≤ p.1.currentDisk := hs.valid.current.resolve_left hcurrent
        have hcurrent' : p.1.config.currentDisk ≠ -1 := hcurrent
        change _ ∨ p.1.config.rescan.Selects p.2.1 p.2.2 ↔ _
        rw [p.1.config.rescan_selects_iff hnonneg]
        constructor
        · intro h _ _
          exact h.resolve_left hcurrent'
        · intro h
          exact Or.inr (h hcurrent hrescan)
    · rw [if_neg hrescan]
      exact iff_of_true hkeeps fun _ h => absurd h hrescan

/-- The index stands for the chosen drive in every run in which this drive
answers in its place, and the first command for which it does not ends that. -/
theorem selection_keeps_identity {s₀ : Machine} (hboot : s₀.Booted) (start : Fin 2 × Fin 2)
    {ks : List Command} (hrun : Run Command.track AnswersInPlace (s₀, start) ks p) :
    KeepsIdentity p ∧ ∀ k rc q, k.track.run p = some (rc, q) →
      (KeepsIdentity q ↔ AnswersInPlace p k) := by
  have hkept : Reachable p.1 ∧ KeepsIdentity p := by
    refine hrun.invariant (I := fun p => Reachable p.1 ∧ KeepsIdentity p)
      (fun p q k rc hp hplace htrack => ?_) ⟨Reachable.boot hboot, Or.inl hboot.currentDisk⟩
    exact ⟨hp.1.step (track_inversion htrack).1,
      (keepsIdentity_step_iff hp.1 hp.2 htrack).mpr hplace⟩
  exact ⟨hkept.2, fun k rc q => keepsIdentity_step_iff hkept.1 hkept.2⟩

theorem track_of_exec {s s' : Machine} (h : k.exec.run s = some (rc, s'))
    (before : Fin 2 × Fin 2) :
    k.track.run (s, before) = some (rc, s', k.chosen rc s' before) := by
  change (k.exec.run s).map _ = _
  rw [h]
  rfl

/-- A run of the machine with the notes of what is chosen. -/
theorem exists_track (hs : p.1.Ready) (k : Command) :
    ∃ q, k.track.run p = some ((p.1.system.step k).1, q) ∧
      q.1.system = (p.1.system.step k).2 ∧ q.1.Ready ∧
      q.2 = k.chosen (p.1.system.step k).1 q.1 p.2 := by
  obtain ⟨s', hexec, hsystem, hready⟩ := k.exec_does p.1 hs
  exact ⟨_, track_of_exec hexec p.2, hsystem, hready, rfl⟩

end Runs

section Drives

/-- Two drives answer the first scan, only the second of them the next one. -/
def firstDriveLeaves : ℕ → Option IdentifyData :=
  fun n => if n = 0 ∨ n = 1 ∨ n = 5 then some smallDrive else none

/-- The blank machine after a scan and the selection of the first disk found. -/
def selectedSystem (identify : ℕ → Option IdentifyData) : System :=
  (((blankMachine identify).system.step .update).2.step (.selectDisk 0)).2

/-- A scan, a selection and another scan. -/
theorem exists_rescan (identify : ℕ → Option IdentifyData)
    (hfound : (((blankMachine identify).system.step .update).2.step (.selectDisk 0)).1 = 0) :
    ∃ p₁ p₂ p₃ : Tracked, ∃ rc₁ rc₂ rc₃,
      Command.update.track.run (blankMachine identify, 0, 0) = some (rc₁, p₁) ∧
      (Command.selectDisk 0).track.run p₁ = some (rc₂, p₂) ∧
      Command.update.track.run p₂ = some (rc₃, p₃) ∧
      p₂.1.system = selectedSystem identify ∧
      p₂.2 = ((selectedSystem identify).selected.controller,
        (selectedSystem identify).selected.drive) ∧
      p₃.1.system = ((selectedSystem identify).step .update).2 ∧ p₃.2 = p₂.2 := by
  have hboot := blankMachine_booted identify
  obtain ⟨p₁, hexec₁, hsystem₁, hready₁, hchosen₁⟩ :=
    exists_track (p := (blankMachine identify, 0, 0)) hboot.ready .update
  obtain ⟨p₂, hexec₂, hsystem₂, hready₂, hchosen₂⟩ := exists_track hready₁ (.selectDisk 0)
  obtain ⟨p₃, hexec₃, hsystem₃, hready₃, hchosen₃⟩ := exists_track hready₂ .update
  rw [hsystem₁] at hsystem₂ hchosen₂
  rw [hsystem₂] at hsystem₃
  have hselected : p₂.1.selected = (selectedSystem identify).selected :=
    congrArg System.selected hsystem₂
  rw [hfound, Command.chosen, if_pos rfl, hselected] at hchosen₂
  exact ⟨p₁, p₂, p₃, _, _, _, hexec₁, hexec₂, hexec₃, hsystem₂, hchosen₂, hsystem₃, hchosen₃⟩

/-- A single drive that answers every scan. -/
theorem selection_keeps_identity_single :
    ∃ p, Run Command.track AnswersInPlace (blankMachine primaryMaster, 0, 0)
        [.update, .selectDisk 0, .update] p ∧
      KeepsIdentity p ∧ ∀ k rc q, k.track.run p = some (rc, q) →
        (KeepsIdentity q ↔ AnswersInPlace p k) := by
  have hboot := blankMachine_booted primaryMaster
  obtain ⟨p₁, p₂, p₃, _, _, _, hexec₁, hexec₂, hexec₃, hsystem, hchosen, -⟩ :=
    exists_rescan primaryMaster rfl
  have hplace : AnswersInPlace p₂ .update := by
    intro _ _
    change (p₂.1.system.config.identify (p₂.1.system.config.scanned +
      (2 * p₂.2.1.val + p₂.2.2.val))).isSome ∧
        p₂.1.system.config.answering (2 * p₂.2.1.val + p₂.2.2.val) =
          p₂.1.system.config.currentDisk.toNat
    rw [hsystem, hchosen]
    exact ⟨rfl, rfl⟩
  have hrun := ((Run.nil.snoc (fun h => absurd rfl h) hexec₁).snoc
    (fun _ h => by simp [System.rescans] at h) hexec₂).snoc hplace hexec₃
  exact ⟨p₃, hrun, selection_keeps_identity hboot (0, 0) hrun⟩

/-- When the first drive is gone, the index of the selection stands for the second. -/
theorem selection_loses_identity :
    (blankMachine firstDriveLeaves).Booted ∧
      ∃ p, Run Command.track (fun _ _ => True) (blankMachine firstDriveLeaves, 0, 0)
        [.update, .selectDisk 0, .update] p ∧ ¬KeepsIdentity p := by
  refine ⟨blankMachine_booted firstDriveLeaves, ?_⟩
  obtain ⟨p₁, p₂, p₃, _, _, _, hexec₁, hexec₂, hexec₃, hsystem, hchosen, hsystem₃, hchosen₃⟩ :=
    exists_rescan firstDriveLeaves rfl
  have hrun : Run Command.track (fun _ _ => True) (blankMachine firstDriveLeaves, 0, 0)
      [.update, .selectDisk 0, .update] p₃ :=
    ((Run.nil.snoc trivial hexec₁).snoc trivial hexec₂).snoc trivial hexec₃
  refine ⟨p₃, hrun, ?_⟩
  change ¬(p₃.1.system.config.currentDisk = -1 ∨ p₃.1.system.config.Selects p₃.2.1 p₃.2.2)
  rw [hsystem₃, hchosen₃, hchosen]
  rintro (hnone | ⟨-, -, hdrive⟩)
  · exact absurd hnone (by decide)
  · exact absurd hdrive (by decide)

end Drives

end EtyOS
