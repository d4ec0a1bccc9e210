import EtyOS.Ata.Handshake
import EtyOS.Kernel.Conduct
import EtyOS.Kernel.History

/-!
# The ports in a history

All that the kernel does to the ports is to call the routines of the driver one after
the other. So whatever is typed and whatever the drives answer, a refused IDENTIFY
included, every line finds both channels ready for the next command.
-/

namespace EtyOS

open Library Main

/-- If no command is in progress in `s`, none is in `s'`. -/
def Machine.StaysIdle (s s' : Machine) : Prop := s.bus.Idle → s'.bus.Idle

instance : IsPreorder Machine Machine.StaysIdle where
  refl _ := id
  trans _ _ _ h h' := h' ∘ h

theorem Machine.StaysIdle.of_bus {s s' : Machine} (h : s'.bus = s.bus) : s.StaysIdle s' := by
  rw [StaysIdle, h]
  exact id

/-- A call with the patience that the kernel has. -/
theorem staysIdle_driver {α : Type} {prog : ℕ → PortProgram α} (op : ℕ → DriverOp)
    (hop : ∀ n s, (op n).exec.run s = ((prog n).run s).map fun r => ((), r.2)) :
    Relates Machine.StaysIdle (driver prog) := by
  intro s a s' hrun hidle
  obtain ⟨⟨b, p⟩, hprogram, heq⟩ := Option.map_eq_some_iff.mp hrun
  obtain ⟨rfl, rfl⟩ := Prod.mk.inj heq
  have hexec : (op s.toPorts.patience).exec.run s.toPorts = some ((), p) := by
    rw [hop, hprogram]
    rfl
  exact (DriverOp.obeys_iff hidle hexec).2

theorem staysIdle_closed : Machine.ClosedWithPool Machine.StaysIdle where
  quiet _ _ hbus _ _ := .of_bus hbus
  pool _ _ hbus := .of_bus hbus
  readSector c d lba buffer m :=
    staysIdle_driver (fun n => .readSectorDisk n c d lba buffer m) fun _ _ => rfl
  writeSector c d lba buffer m :=
    staysIdle_driver (fun n => .writeSectorDisk n c d lba buffer m) fun _ _ => rfl
  identifyDrive c d := staysIdle_driver (fun n => .identifyDrive n c d) fun _ _ => rfl

section Histories

variable {frame : MainState → LocalArray} {m : Machine} {lines : List CString} {t : MainState}

/-- If no command was in progress when the kernel was started, none is at any prompt of any
history, whatever is typed and whatever the drives answer. -/
theorem history_stays_idle (h : Reached frame m lines t) (hidle : m.bus.Idle) :
    t.machine.bus.Idle := by
  obtain ⟨t₀, hboot, hrun⟩ := h
  have hstart : m.StaysIdle t₀.machine := staysIdle_closed.boot hboot
  refine Run.invariant (I := fun t => t.machine.bus.Idle) (fun t₁ t₂ line _ h₁ _ hturn => ?_)
    (hstart hidle) hrun
  exact staysIdle_closed.turn hturn (fun _ _ _ _ => staysIdle_closed.formatExt4) h₁

/-- The second drive refuses every IDENTIFY. -/
theorem history_stays_idle_packet :
    ∃ t, Reached (fun _ _ => 0) (blankMachine fun n =>
        some { busy := 1, word := fun _ => 0, refused := n % 2 == 1 }) partitioningLines t ∧
      t.machine.bus.Idle := by
  obtain ⟨t, ht⟩ := Reached.exists (fun _ _ => 0) (blankMachine fun n =>
    some { busy := 1, word := fun _ => 0, refused := n % 2 == 1 }) partitioningLines
  exact ⟨t, ht, history_stays_idle ht fun _ => ⟨rfl, trivial⟩⟩

end Histories

end EtyOS
