import Mathlib.Tactic

/-!
# Programs over I/O ports

A driver talks to its device through port reads and writes only. A
`PortProgram` is the tree of those accesses, with no device in it: a read node
has one branch for each value the port may answer, so two drivers with equal
trees perform the same accesses against every device. `run` executes a tree
on any state that can answer the accesses.
-/

namespace EtyOS.Library

/-- A tree of port accesses ending in a value. `stuck` is a run that never
comes back, the end of a polling loop whose budget is exhausted. -/
inductive PortProgram (α : Type) where
  | ret (a : α) : PortProgram α
  | inb (port : UInt16) (k : UInt8 → PortProgram α) : PortProgram α
  | inw (port : UInt16) (k : UInt16 → PortProgram α) : PortProgram α
  | outb (port : UInt16) (value : UInt8) (k : PortProgram α) : PortProgram α
  | outw (port : UInt16) (value : UInt16) (k : PortProgram α) : PortProgram α
  | say (text : String) (k : PortProgram α) : PortProgram α
  | stuck : PortProgram α

namespace PortProgram

variable {α β σ : Type}

def bind : PortProgram α → (α → PortProgram β) → PortProgram β
  | ret a, f => f a
  | inb p k, f => inb p fun v => (k v).bind f
  | inw p k, f => inw p fun v => (k v).bind f
  | outb p v k, f => outb p v (k.bind f)
  | outw p v k, f => outw p v (k.bind f)
  | say t k, f => say t (k.bind f)
  | stuck, _ => stuck

instance : Monad PortProgram where
  pure := ret
  bind := bind

def readByte (port : UInt16) : PortProgram UInt8 := inb port ret
def readWord (port : UInt16) : PortProgram UInt16 := inw port ret
def writeByte (port : UInt16) (value : UInt8) : PortProgram Unit := outb port value (ret ())
def writeWord (port : UInt16) (value : UInt16) : PortProgram Unit := outw port value (ret ())
def emit (text : String) : PortProgram Unit := say text (ret ())

/-- Read the port until a mask of status bits is clear, at most `budget` times. -/
def pollUntilClear (port : UInt16) (mask : UInt8) : ℕ → PortProgram Unit
  | 0 => stuck
  | budget + 1 => do
    let status ← readByte port
    if status &&& mask ≠ 0 then pollUntilClear port mask budget else ret ()

/-- The counted loop `for (i = first; i < first + count; ++i)`, threading a value. -/
def forRange (body : ℕ → α → PortProgram α) : (count first : ℕ) → α → PortProgram α
  | 0, _, a => ret a
  | count + 1, first, a => do
    let a ← body first a
    forRange body count (first + 1) a

end PortProgram

/-- A state that answers port accesses. -/
class PortDevice (σ : Type) where
  inb : UInt16 → σ → UInt8 × σ
  inw : UInt16 → σ → UInt16 × σ
  outb : UInt16 → UInt8 → σ → σ
  outw : UInt16 → UInt16 → σ → σ
  say : String → σ → σ

namespace PortProgram

variable {α β σ : Type} [PortDevice σ]

/-- Execute a tree against a device; `none` when the run gets stuck. -/
def run : PortProgram α → σ → Option (α × σ)
  | ret a, s => some (a, s)
  | inb p k, s => (k (PortDevice.inb p s).1).run (PortDevice.inb p s).2
  | inw p k, s => (k (PortDevice.inw p s).1).run (PortDevice.inw p s).2
  | outb p v k, s => k.run (PortDevice.outb p v s)
  | outw p v k, s => k.run (PortDevice.outw p v s)
  | say t k, s => k.run (PortDevice.say t s)
  | stuck, _ => none

@[simp] theorem run_pure (a : α) (s : σ) : (pure a : PortProgram α).run s = some (a, s) := rfl

@[simp] theorem run_ret (a : α) (s : σ) : (ret a).run s = some (a, s) := rfl

theorem run_bind (p : PortProgram α) (f : α → PortProgram β) (s : σ) :
    (p >>= f).run s = (p.run s).bind fun r => (f r.1).run r.2 := by
  change (p.bind f).run s = _
  induction p generalizing s with
  | ret a => rfl
  | inb port k ih => exact ih _ _
  | inw port k ih => exact ih _ _
  | outb port v k ih => exact ih _
  | outw port v k ih => exact ih _
  | say text k ih => exact ih _
  | stuck => rfl

/-- A program that comes back hands its value and state to what follows. -/
theorem run_bind_of_run {p : PortProgram α} {s s' : σ} {a : α} (f : α → PortProgram β)
    (h : p.run s = some (a, s')) : (p >>= f).run s = (f a).run s' := by
  rw [run_bind, h]
  rfl

@[simp] theorem run_readByte (port : UInt16) (s : σ) :
    (readByte port).run s = some ((PortDevice.inb port s).1, (PortDevice.inb port s).2) := rfl

@[simp] theorem run_readWord (port : UInt16) (s : σ) :
    (readWord port).run s = some ((PortDevice.inw port s).1, (PortDevice.inw port s).2) := rfl

@[simp] theorem run_writeByte (port : UInt16) (v : UInt8) (s : σ) :
    (writeByte port v).run s = some ((), PortDevice.outb port v s) := rfl

@[simp] theorem run_writeWord (port : UInt16) (v : UInt16) (s : σ) :
    (writeWord port v).run s = some ((), PortDevice.outw port v s) := rfl

@[simp] theorem run_emit (text : String) (s : σ) :
    (emit text).run s = some ((), PortDevice.say text s) := rfl

/-- Polling ends in the state after the first clear status, when there is one
within the budget: `busy k` are the states that still answer with a masked bit. -/
theorem run_pollUntilClear {port : UInt16} {mask : UInt8} (busy : ℕ → σ) {done : σ}
    (hbusy : ∀ k, (PortDevice.inb port (busy (k + 1))).1 &&& mask ≠ 0 ∧
      (PortDevice.inb port (busy (k + 1))).2 = busy k)
    (hdone : (PortDevice.inb port (busy 0)).1 &&& mask = 0 ∧
      (PortDevice.inb port (busy 0)).2 = done)
    {k budget : ℕ} (hk : k < budget) :
    (pollUntilClear port mask budget).run (busy k) = some ((), done) := by
  induction k generalizing budget with
  | zero =>
    obtain ⟨budget, rfl⟩ := Nat.exists_eq_succ_of_ne_zero (by omega : budget ≠ 0)
    rw [pollUntilClear, run_bind_of_run _ (run_readByte _ _), if_neg (by simp [hdone.1]),
      hdone.2, run_ret]
  | succ k ih =>
    obtain ⟨budget, rfl⟩ := Nat.exists_eq_succ_of_ne_zero (by omega : budget ≠ 0)
    rw [pollUntilClear, run_bind_of_run _ (run_readByte _ _), if_pos (hbusy k).1,
      (hbusy k).2]
    exact ih (by omega)

/-- A counted loop whose every iteration comes back runs to the end of its
states: `st i` and `val i` are the state and the value before iteration `i`. -/
theorem run_forRange (body : ℕ → α → PortProgram α) (st : ℕ → σ) (val : ℕ → α)
    (count first : ℕ)
    (hbody : ∀ i, first ≤ i → i < first + count →
      (body i (val i)).run (st i) = some (val (i + 1), st (i + 1))) :
    (forRange body count first (val first)).run (st first) =
      some (val (first + count), st (first + count)) := by
  induction count generalizing first with
  | zero => rfl
  | succ count ih =>
    rw [forRange, run_bind_of_run _ (hbody first le_rfl (by omega)),
      ih (first + 1) fun i hi hi' => hbody i (by omega) (by omega)]
    rw [show first + 1 + count = first + (count + 1) by omega]

/-- Every run of `p` that comes back is a run of `q`. -/
def Extends (σ : Type) [PortDevice σ] (p q : PortProgram α) : Prop :=
  ∀ (s : σ) (r : α × σ), p.run s = some r → q.run s = some r

theorem Extends.refl (p : PortProgram α) : Extends σ p p := fun _ _ h => h

theorem Extends.bind {p q : PortProgram α} {f g : α → PortProgram β} (hpq : Extends σ p q)
    (hfg : ∀ a, Extends σ (f a) (g a)) : Extends σ (p >>= f) (q >>= g) := by
  intro s r h
  rw [run_bind] at h
  obtain ⟨⟨a, s₁⟩, hp, hf⟩ := Option.bind_eq_some_iff.mp h
  rw [run_bind_of_run _ (hpq s _ hp)]
  exact hfg a s₁ r hf

theorem Extends.ite {c : Prop} [Decidable c] {p p' q q' : PortProgram α} (hp : Extends σ p p')
    (hq : Extends σ q q') : Extends σ (if c then p else q) (if c then p' else q') := by
  split
  · exact hp
  · exact hq

/-- A larger budget changes nothing about the runs that come back. -/
theorem pollUntilClear_extends (port : UInt16) (mask : UInt8) {budget budget' : ℕ}
    (h : budget ≤ budget') :
    Extends σ (pollUntilClear port mask budget) (pollUntilClear port mask budget') := by
  induction budget generalizing budget' with
  | zero =>
    intro s r hrun
    cases hrun
  | succ budget ih =>
    obtain ⟨budget', rfl⟩ := Nat.exists_eq_succ_of_ne_zero (by omega : budget' ≠ 0)
    apply Extends.bind (Extends.refl _)
    intro status
    exact Extends.ite (ih (by omega)) (Extends.refl _)

end PortProgram

end EtyOS.Library
