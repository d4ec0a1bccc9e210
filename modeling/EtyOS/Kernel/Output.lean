import EtyOS.Kernel.System

/-!
# What a kernel function can print

`Prints P` says that a kernel function only makes calls of `print.c` that satisfy
`P`, whatever state it starts in. The rules follow the way kernel functions are
put together; the sector routines print one text at most.
-/

namespace EtyOS

open Library PortProgram

/-- The calls made from `s` to `s'` satisfy `P`. -/
def Machine.Printed (P : PrintCall → Prop) (s s' : Machine) : Prop :=
  ∃ calls, s'.printed = s.printed ++ calls ∧ ∀ c ∈ calls, P c

instance (P : PrintCall → Prop) : IsPreorder Machine (Machine.Printed P) where
  refl s := ⟨[], by simp, by simp⟩
  trans s s₁ s₂ := by
    rintro ⟨calls, hcalls, hall⟩ ⟨calls₁, hcalls₁, hall₁⟩
    refine ⟨calls ++ calls₁, by rw [hcalls₁, hcalls, List.append_assoc], ?_⟩
    intro c hc
    exact (List.mem_append.mp hc).elim (hall c) (hall₁ c)

abbrev Prints {α : Type} (P : PrintCall → Prop) (x : Kernel α) : Prop :=
  Relates (Machine.Printed P) x

/-- Every call but a change of the colours. -/
def PrintCall.Colorless : PrintCall → Prop
  | .setColor _ _ => False
  | _ => True

section Prints

variable {α : Type} {P : PrintCall → Prop}

theorem prints_silent {f : Machine → Machine} (hf : ∀ s, (f s).printed = s.printed) :
    Prints P (modify f : Kernel Unit) :=
  Relates.modify fun s => ⟨[], by rw [hf, List.append_nil], by simp⟩

theorem prints_console {calls : List PrintCall} (h : ∀ c ∈ calls, P c) :
    Prints P (console calls) := Relates.modify fun _ => ⟨calls, rfl, h⟩

theorem prints_record (e : Event) : Prints P (record e) := prints_silent fun _ => rfl

theorem prints_bufferWrite (a n : ℕ) (f : Memory → Memory) : Prints P (bufferWrite a n f) :=
  prints_silent fun _ => rfl

theorem prints_bufferRead (f : Memory → α) : Prints P (bufferRead f) :=
  Relates.get.bind fun _ => Relates.pure _

theorem prints_kernelAllocate (size : UInt64) : Prints P (kernelAllocate size) := by
  intro s a s' hrun
  obtain ⟨r, -, hr⟩ := Option.map_eq_some_iff.mp hrun
  obtain ⟨-, rfl⟩ := Prod.mk.inj hr
  exact ⟨[], (List.append_nil _).symm, by simp⟩

theorem prints_kernelFree (ptr : ℕ) : Prints P (kernelFree ptr) := by
  intro s a s' hrun
  obtain ⟨r, -, hr⟩ := Option.map_eq_some_iff.mp hrun
  obtain ⟨-, rfl⟩ := Prod.mk.inj hr
  exact ⟨[], (List.append_nil _).symm, by simp⟩

/-- A port program prints the texts that it says. -/
theorem run_says (p : PortProgram α) (hP : ∀ text, P (.str text)) {s s' : Ports} {a : α}
    (hrun : p.run s = some (a, s')) :
    ∃ calls, s'.printed = s.printed ++ calls ∧ ∀ c ∈ calls, P c := by
  induction p generalizing s with
  | ret b =>
    obtain ⟨-, rfl⟩ := Prod.mk.inj (Option.some.inj hrun)
    exact ⟨[], by simp, by simp⟩
  | inb port k ih =>
    rw [PortProgram.run] at hrun
    have hrest := ih _ hrun
    exact hrest
  | inw port k ih =>
    rw [PortProgram.run] at hrun
    have hrest := ih _ hrun
    exact hrest
  | outb port v k ih =>
    rw [PortProgram.run] at hrun
    have hrest := ih hrun
    exact hrest
  | outw port v k ih =>
    rw [PortProgram.run] at hrun
    have hrest := ih hrun
    exact hrest
  | say text k ih =>
    obtain ⟨calls, hcalls, hall⟩ := ih hrun
    refine ⟨.str text :: calls, ?_, List.forall_mem_cons.mpr ⟨hP text, hall⟩⟩
    rw [hcalls]
    exact List.append_assoc _ _ _
  | stuck => cases hrun

theorem prints_driver (prog : ℕ → PortProgram α) (hP : ∀ text, P (.str text)) :
    Prints P (driver prog) := by
  intro s a s' hrun
  obtain ⟨r, hprog, hr⟩ := Option.map_eq_some_iff.mp hrun
  obtain ⟨-, rfl⟩ := Prod.mk.inj hr
  exact run_says _ hP hprog

end Prints

section Colorless

theorem prints_readSector (c d : Fin 2) (lba : UInt32) (buffer : ℕ) (m : Memory) :
    Prints PrintCall.Colorless (ataReadSectorDisk c d lba buffer m) :=
  (prints_driver _ fun _ => trivial).bind fun _ =>
    (prints_record _).bind fun _ => Relates.pure _

theorem prints_writeSector (c d : Fin 2) (lba : UInt32) (buffer : ℕ) (m : Memory) :
    Prints PrintCall.Colorless (ataWriteSectorDisk c d lba buffer m) :=
  (prints_driver _ fun _ => trivial).bind fun _ =>
    (prints_record _).bind fun _ => Relates.pure _

end Colorless

section Quiet

/-- The calls made from `s` to `s'` keep the colours, and the pool is left alone. -/
structure Machine.Quiet (s s' : Machine) : Prop where
  printed : Machine.Printed PrintCall.Colorless s s'
  memory : s'.memory = s.memory
  poolBase : s'.poolBase = s.poolBase

instance : IsPreorder Machine Machine.Quiet where
  refl s := ⟨refl_of (Machine.Printed _) s, rfl, rfl⟩
  trans _ _ _ h h' := ⟨trans_of (Machine.Printed _) h.printed h'.printed,
    h'.memory.trans h.memory, h'.poolBase.trans h.poolBase⟩

theorem Machine.Quiet.ready {s s' : Machine} (h : s.Quiet s') (hs : s.Ready) : s'.Ready := by
  rw [Machine.Ready, h.memory, h.poolBase]
  exact hs

theorem quiet_console {calls : List PrintCall} (h : ∀ c ∈ calls, c.Colorless) :
    Relates Machine.Quiet (console calls) := Relates.modify fun _ => ⟨⟨calls, rfl, h⟩, rfl, rfl⟩

theorem quiet_driver {α : Type} (prog : ℕ → PortProgram α) :
    Relates Machine.Quiet (driver prog) := by
  intro s a s' hrun
  refine ⟨prints_driver prog (fun _ => trivial) s a s' hrun, ?_, ?_⟩
  all_goals
    obtain ⟨r, -, hr⟩ := Option.map_eq_some_iff.mp hrun
    obtain ⟨-, rfl⟩ := Prod.mk.inj hr
    rfl

theorem quiet_readSector (c d : Fin 2) (lba : UInt32) (buffer : ℕ) (m : Memory) :
    Relates Machine.Quiet (ataReadSectorDisk c d lba buffer m) := by
  refine (quiet_driver _).bind fun _ => Relates.bind ?_ fun _ => Relates.pure _
  exact Relates.modify fun s => ⟨⟨[], (List.append_nil _).symm, by simp⟩, rfl, rfl⟩

end Quiet

section Handles

variable {α : Type} {P : PrintCall → Prop} {A : α → Prop} {x : Kernel α}

/-- From a ready machine the function comes back with a result in `A` and the machine
ready, and prints calls that satisfy `P`. -/
def Handles (P : PrintCall → Prop) (A : α → Prop) (x : Kernel α) : Prop :=
  ∀ s, s.Ready → ∃ a s', x.run s = some (a, s') ∧ A a ∧ s'.Ready ∧ s.Printed P s'

theorem Does.handles {f : System → α × System} (hdoes : Does x f) (hprints : Prints P x) :
    Handles P (fun a => ∃ t, a = (f t).1) x := by
  intro s hs
  obtain ⟨s', hrun, -, hready⟩ := hdoes s hs
  exact ⟨_, s', hrun, ⟨_, rfl⟩, hready, hprints s _ s' hrun⟩

theorem handles_of_quiet (hruns : ∀ s, ∃ a s', x.run s = some (a, s'))
    (hquiet : Relates Machine.Quiet x) : Handles PrintCall.Colorless (fun _ => True) x := by
  intro s hs
  obtain ⟨a, s', hrun⟩ := hruns s
  have h := hquiet s a s' hrun
  exact ⟨a, s', hrun, trivial, h.ready hs, h.printed⟩

theorem handles_console {calls : List PrintCall} (h : ∀ c ∈ calls, P c) :
    Handles P (fun _ => True) (console calls) :=
  fun s hs => ⟨(), s.print calls, rfl, trivial, hs, ⟨calls, rfl, h⟩⟩

end Handles

end EtyOS
