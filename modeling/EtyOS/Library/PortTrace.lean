import EtyOS.Library.PortProgram

/-!
# Port programs and sequences of responses

`exchange` hands a program the responses of a device one by one, whatever device
it is, and lists the accesses that the program makes with them. A polling loop
whose budget exceeds the number of responses is as good as one without a budget:
it waits for a response before the budget is spent.
-/

namespace EtyOS.Library

/-- An access of a program, a read with its answer. -/
inductive Access where
  | inb (port : UInt16) (answer : UInt8)
  | inw (port : UInt16) (answer : UInt16)
  | outb (port : UInt16) (value : UInt8)
  | outw (port : UInt16) (value : UInt16)
  | say (text : String)
deriving DecidableEq

/-- Where a program is when it has had the responses: at its end, with some left,
at a read of a port without one, or stuck. -/
inductive Progress (α : Type) where
  | done (a : α) (rest : List UInt16)
  | waiting (port : UInt16)
  | stuck
deriving DecidableEq

namespace PortProgram

variable {α β : Type}

/-- An access, and what comes after it. -/
def record (a : Access) (e : List Access × Progress α) : List Access × Progress α :=
  (a :: e.1, e.2)

/-- The accesses of a program that gets these responses, and where it is then. A
byte port answers with the low byte of a response. -/
def exchange : PortProgram α → List UInt16 → List Access × Progress α
  | ret a, rs => ([], .done a rs)
  | inb port _, [] => ([], .waiting port)
  | inb port k, r :: rs => record (.inb port r.toUInt8) ((k r.toUInt8).exchange rs)
  | inw port _, [] => ([], .waiting port)
  | inw port k, r :: rs => record (.inw port r) ((k r).exchange rs)
  | outb port v k, rs => record (.outb port v) (k.exchange rs)
  | outw port v k, rs => record (.outw port v) (k.exchange rs)
  | say text k, rs => record (.say text) (k.exchange rs)
  | stuck, _ => ([], .stuck)

/-- The program does not run out of a budget while it has at most `n` responses. -/
def Unstuck (n : ℕ) (p : PortProgram α) : Prop :=
  ∀ rs, rs.length ≤ n → (p.exchange rs).2 ≠ .stuck

/-- What follows a program that has come to its end gets the responses left. -/
def andThen (e : List Access × Progress α) (g : α → List UInt16 → List Access × Progress β) :
    List Access × Progress β :=
  match e.2 with
  | .done a rest => (e.1 ++ (g a rest).1, (g a rest).2)
  | .waiting port => (e.1, .waiting port)
  | .stuck => (e.1, .stuck)

theorem record_andThen (a : Access) (e : List Access × Progress α)
    (g : α → List UInt16 → List Access × Progress β) :
    andThen (record a e) g = record a (andThen e g) := by
  obtain ⟨accesses, progress⟩ := e
  cases progress <;> rfl

theorem exchange_bind (p : PortProgram α) (f : α → PortProgram β) (rs : List UInt16) :
    (p >>= f).exchange rs = andThen (p.exchange rs) fun a rest => (f a).exchange rest := by
  change (p.bind f).exchange rs = _
  induction p generalizing rs with
  | ret a => rfl
  | inb port k ih =>
    cases rs with
    | nil => rfl
    | cons r rs => rw [bind, exchange, exchange, record_andThen, ih]
  | inw port k ih =>
    cases rs with
    | nil => rfl
    | cons r rs => rw [bind, exchange, exchange, record_andThen, ih]
  | outb port v k ih => rw [bind, exchange, exchange, record_andThen, ih]
  | outw port v k ih => rw [bind, exchange, exchange, record_andThen, ih]
  | say text k ih => rw [bind, exchange, exchange, record_andThen, ih]
  | stuck => rfl

/-- No response comes back. -/
theorem exchange_rest {p : PortProgram α} {rs rest : List UInt16} {a : α}
    (h : (p.exchange rs).2 = .done a rest) : rest.length ≤ rs.length := by
  induction p generalizing rs with
  | ret b =>
    obtain ⟨-, rfl⟩ := Progress.done.inj h
    exact le_rfl
  | inb port k ih =>
    cases rs with
    | nil => cases h
    | cons r rs => exact Nat.le_succ_of_le (ih _ h)
  | inw port k ih =>
    cases rs with
    | nil => cases h
    | cons r rs => exact Nat.le_succ_of_le (ih _ h)
  | outb port v k ih => exact ih h
  | outw port v k ih => exact ih h
  | say text k ih => exact ih h
  | stuck => cases h

section Unstuck

variable {n : ℕ}

theorem unstuck_ret (a : α) : Unstuck n (ret a) := fun _ _ => nofun

theorem Unstuck.bind {p : PortProgram α} {f : α → PortProgram β} (hp : Unstuck n p)
    (hf : ∀ a, Unstuck n (f a)) : Unstuck n (p >>= f) := by
  intro rs hrs
  rw [exchange_bind, andThen]
  have hfirst := hp rs hrs
  cases hprogress : (p.exchange rs).2 with
  | done a rest => exact hf a rest ((exchange_rest hprogress).trans hrs)
  | waiting port => exact nofun
  | stuck => exact absurd hprogress hfirst

theorem Unstuck.ite {c : Prop} [Decidable c] {p q : PortProgram α} (hp : Unstuck n p)
    (hq : Unstuck n q) : Unstuck n (if c then p else q) := by
  split
  · exact hp
  · exact hq

theorem unstuck_readByte (port : UInt16) : Unstuck n (readByte port) := by
  intro rs _
  cases rs <;> exact nofun

theorem unstuck_readWord (port : UInt16) : Unstuck n (readWord port) := by
  intro rs _
  cases rs <;> exact nofun

theorem unstuck_writeByte (port : UInt16) (v : UInt8) : Unstuck n (writeByte port v) :=
  fun _ _ => nofun

theorem unstuck_writeWord (port v : UInt16) : Unstuck n (writeWord port v) := fun _ _ => nofun

theorem unstuck_emit (text : String) : Unstuck n (emit text) := fun _ _ => nofun

/-- A poll takes one response a turn, so more turns than responses are enough. -/
theorem unstuck_pollUntilClear (port : UInt16) (mask : UInt8) {budget : ℕ} (h : n < budget) :
    Unstuck n (pollUntilClear port mask budget) := by
  induction budget generalizing n with
  | zero => omega
  | succ budget ih =>
    intro rs hrs
    cases rs with
    | nil => exact nofun
    | cons r rs =>
      change ((if r.toUInt8 &&& mask ≠ 0 then pollUntilClear port mask budget
        else ret ()).exchange rs).2 ≠ .stuck
      rw [List.length_cons] at hrs
      split
      · exact ih (n := n - 1) (by omega) rs (by omega)
      · exact nofun

theorem unstuck_forRange {body : ℕ → α → PortProgram α} (hbody : ∀ i a, Unstuck n (body i a))
    (count first : ℕ) (a : α) : Unstuck n (forRange body count first a) := by
  induction count generalizing first a with
  | zero => exact unstuck_ret a
  | succ count ih => exact (hbody first a).bind fun b => ih (first + 1) b

end Unstuck

end PortProgram

end EtyOS.Library
