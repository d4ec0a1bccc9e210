import EtyOS.Library.PortTrace

/-!
# Permission to access a port

A device allows an access or not, depending on its state. `Guarded` says that every
access of a program finds the device in a state that allows it, whether the program
comes back or gets stuck, and that what it comes back with satisfies a postcondition. The
rules follow the way programs are put together.
-/

namespace EtyOS.Library.PortProgram

variable {α β σ : Type} [PortDevice σ]

/-- The accesses of a run, each with the state that it finds. -/
def visits : PortProgram α → σ → List (Access × σ)
  | ret _, _ => []
  | inb p k, s =>
    (.inb p (PortDevice.inb p s).1, s) ::
      (k (PortDevice.inb p s).1).visits (PortDevice.inb p s).2
  | inw p k, s =>
    (.inw p (PortDevice.inw p s).1, s) ::
      (k (PortDevice.inw p s).1).visits (PortDevice.inw p s).2
  | outb p v k, s => (.outb p v, s) :: k.visits (PortDevice.outb p v s)
  | outw p v k, s => (.outw p v, s) :: k.visits (PortDevice.outw p v s)
  | say t k, s => (.say t, s) :: k.visits (PortDevice.say t s)
  | stuck, _ => []

/-- What follows a program accesses the ports if the program comes back. -/
theorem visits_bind (p : PortProgram α) (f : α → PortProgram β) (s : σ) :
    (p >>= f).visits s =
      p.visits s ++ (p.run s).elim [] fun r => (f r.1).visits r.2 := by
  change (p.bind f).visits s = _
  induction p generalizing s with
  | ret a => rfl
  | inb port k ih => exact congrArg (List.cons _) (ih _ _)
  | inw port k ih => exact congrArg (List.cons _) (ih _ _)
  | outb port v k ih => exact congrArg (List.cons _) (ih _)
  | outw port v k ih => exact congrArg (List.cons _) (ih _)
  | say text k ih => exact congrArg (List.cons _) (ih _)
  | stuck => rfl

theorem visits_bind_of_run {p : PortProgram α} {s s' : σ} {a : α} (f : α → PortProgram β)
    (h : p.run s = some (a, s')) : (p >>= f).visits s = p.visits s ++ (f a).visits s' := by
  rw [visits_bind, h]
  rfl

/-- Every access is allowed in the state that it finds, and the result satisfies `Q`. -/
structure Guarded (ok : Access → σ → Prop) (Q : α → σ → Prop) (p : PortProgram α) (s : σ) :
    Prop where
  visits : ∀ v ∈ p.visits s, ok v.1 v.2
  result : ∀ a s', p.run s = some (a, s') → Q a s'

section Rules

variable {ok : Access → σ → Prop} {Q : α → σ → Prop} {p : PortProgram α} {s s' : σ}

theorem Guarded.mono {R : α → σ → Prop} (h : Guarded ok Q p s) (hQ : ∀ a s', Q a s' → R a s') :
    Guarded ok R p s :=
  ⟨h.visits, fun a s' hrun => hQ a s' (h.result a s' hrun)⟩

theorem guarded_pure {a : α} (h : Q a s) : Guarded ok Q (pure a) s where
  visits := fun _ hv => absurd hv List.not_mem_nil
  result := by
    rintro _ _ ⟨⟩
    exact h

theorem Guarded.bind {R : β → σ → Prop} {f : α → PortProgram β}
    (hp : Guarded ok (fun a s' => Guarded ok R (f a) s') p s) : Guarded ok R (p >>= f) s where
  visits := by
    intro v hv
    rw [visits_bind, List.mem_append] at hv
    rcases hv with hv | hv
    · exact hp.visits v hv
    · cases hrun : p.run s with
      | none => simp [hrun] at hv
      | some r =>
        rw [hrun] at hv
        exact (hp.result r.1 r.2 hrun).visits v hv
  result := by
    intro b s' hrun
    rw [run_bind] at hrun
    obtain ⟨r, hfirst, hrest⟩ := Option.bind_eq_some_iff.mp hrun
    exact (hp.result r.1 r.2 hfirst).result b s' hrest

theorem guarded_readByte {port : UInt16} {Q : UInt8 → σ → Prop}
    (hok : ok (.inb port (PortDevice.inb port s).1) s)
    (hQ : Q (PortDevice.inb port s).1 (PortDevice.inb port s).2) :
    Guarded ok Q (readByte port) s where
  visits := fun _ hv => List.mem_singleton.mp hv ▸ hok
  result := by
    rintro _ _ ⟨⟩
    exact hQ

theorem guarded_readWord {port : UInt16} {Q : UInt16 → σ → Prop}
    (hok : ok (.inw port (PortDevice.inw port s).1) s)
    (hQ : Q (PortDevice.inw port s).1 (PortDevice.inw port s).2) :
    Guarded ok Q (readWord port) s where
  visits := fun _ hv => List.mem_singleton.mp hv ▸ hok
  result := by
    rintro _ _ ⟨⟩
    exact hQ

theorem guarded_writeByte {port : UInt16} {v : UInt8} {Q : Unit → σ → Prop}
    (hok : ok (.outb port v) s) (hQ : Q () (PortDevice.outb port v s)) :
    Guarded ok Q (writeByte port v) s where
  visits := fun _ hv => List.mem_singleton.mp hv ▸ hok
  result := by
    rintro _ _ ⟨⟩
    exact hQ

theorem guarded_writeWord {port : UInt16} {v : UInt16} {Q : Unit → σ → Prop}
    (hok : ok (.outw port v) s) (hQ : Q () (PortDevice.outw port v s)) :
    Guarded ok Q (writeWord port v) s where
  visits := fun _ hv => List.mem_singleton.mp hv ▸ hok
  result := by
    rintro _ _ ⟨⟩
    exact hQ

theorem guarded_emit {text : String} {Q : Unit → σ → Prop} (hok : ok (.say text) s)
    (hQ : Q () (PortDevice.say text s)) : Guarded ok Q (emit text) s where
  visits := fun _ hv => List.mem_singleton.mp hv ▸ hok
  result := by
    rintro _ _ ⟨⟩
    exact hQ

/-- A polling loop reads the port in states of the invariant `I`, and leaves it with the
first status in which the bits are clear. -/
theorem guarded_pollUntilClear {port : UInt16} {mask : UInt8} {I : σ → Prop}
    {Q : Unit → σ → Prop}
    (hok : ∀ s, I s → ok (.inb port (PortDevice.inb port s).1) s)
    (hmore : ∀ s, I s → (PortDevice.inb port s).1 &&& mask ≠ 0 → I (PortDevice.inb port s).2)
    (hdone : ∀ s, I s → (PortDevice.inb port s).1 &&& mask = 0 → Q () (PortDevice.inb port s).2)
    (budget : ℕ) (hs : I s) : Guarded ok Q (pollUntilClear port mask budget) s := by
  induction budget generalizing s with
  | zero => exact ⟨fun _ hv => absurd hv List.not_mem_nil, fun _ _ hrun => by cases hrun⟩
  | succ budget ih =>
    refine Guarded.bind (guarded_readByte (hok s hs) ?_)
    by_cases hset : (PortDevice.inb port s).1 &&& mask ≠ 0
    · rw [if_pos hset]
      exact ih (hmore s hs hset)
    · rw [if_neg hset]
      exact guarded_pure (hdone s hs (not_not.mp hset))

/-- A counted loop keeps an invariant that names the next index. -/
theorem guarded_forRange {body : ℕ → α → PortProgram α} {I : ℕ → α → σ → Prop} (count : ℕ)
    {first : ℕ} {a : α}
    (hbody : ∀ i a s, first ≤ i → i < first + count → I i a s → Guarded ok (I (i + 1)) (body i a) s)
    (hs : I first a s) : Guarded ok (I (first + count)) (forRange body count first a) s := by
  induction count generalizing first a s with
  | zero => exact guarded_pure hs
  | succ count ih =>
    have hend : first + (count + 1) = first + 1 + count := by omega
    rw [hend]
    refine Guarded.bind ((hbody first a s le_rfl (by omega) hs).mono fun a' s' hs' => ?_)
    exact ih (fun i a s hi hi' => hbody i a s (by omega) (by omega)) hs'

end Rules

end EtyOS.Library.PortProgram
