import Mathlib.Control.Monad.Basic
import Mathlib.Tactic

/-!
# Fallible programs against total functions, and runs of commands

A program is a state transformer that may fail to come back. `Simulates` says
that from every state of an invariant it does come back, keeps the invariant,
and does to a view of the state what a total function does to the view. `Run`
is a sequence of commands, each executed in a state that allows it; an
invariant that every allowed step keeps holds after every run.
-/

namespace EtyOS.Library

variable {σ τ κ α β : Type}

/-- From the state `s` the program comes back in `inv`, with the result and the
view that `f` computes from the view before. -/
def SimulatesAt (view : σ → τ) (inv : σ → Prop) (x : StateT σ Option α) (f : τ → α × τ)
    (s : σ) : Prop :=
  ∃ s', x.run s = some ((f (view s)).1, s') ∧ view s' = (f (view s)).2 ∧ inv s'

/-- The program does so from every state in `inv`. -/
def Simulates (view : σ → τ) (inv : σ → Prop) (x : StateT σ Option α) (f : τ → α × τ) : Prop :=
  ∀ s, inv s → SimulatesAt view inv x f s

section Simulates

variable {view : σ → τ} {inv : σ → Prop} {x : StateT σ Option α} {f f' : τ → α × τ}

theorem Simulates.of_eq (h : Simulates view inv x f) (hf : ∀ t, f t = f' t) :
    Simulates view inv x f' := by
  rw [← funext hf]
  exact h

theorem Simulates.pure (a : α) :
    Simulates view inv (pure a) fun t => (a, t) := fun s hs => ⟨s, rfl, rfl, hs⟩

theorem Simulates.bind {g : α → StateT σ Option β} {h : α → τ → β × τ}
    (hx : Simulates view inv x f) (hg : ∀ a, Simulates view inv (g a) (h a)) :
    Simulates view inv (x >>= g) fun t => h (f t).1 (f t).2 := by
  intro s hs
  obtain ⟨s₁, hrun₁, hview₁, hinv₁⟩ := hx s hs
  obtain ⟨s₂, hrun₂, hview₂, hinv₂⟩ := hg (f (view s)).1 s₁ hinv₁
  rw [hview₁] at hrun₂ hview₂
  refine ⟨s₂, ?_, hview₂, hinv₂⟩
  rw [StateT.run_bind, hrun₁]
  exact hrun₂

theorem Simulates.ite {p : Prop} [Decidable p] {y : StateT σ Option α} {g : τ → α × τ}
    (hx : p → Simulates view inv x f) (hy : ¬p → Simulates view inv y g) :
    Simulates view inv (if p then x else y) fun t => if p then f t else g t := by
  by_cases hp : p
  · simpa [hp] using hx hp
  · simpa [hp] using hy hp

/-- Only the value of the function at this state matters. -/
theorem SimulatesAt.congr {s : σ} (h : SimulatesAt view inv x f s)
    (hf : f (view s) = f' (view s)) : SimulatesAt view inv x f' s := by
  rw [SimulatesAt, ← hf]
  exact h

/-- A branch on the state, which the view decides as well. -/
theorem SimulatesAt.ite {s : σ} {p : Prop} [Decidable p] {q : τ → Prop} [DecidablePred q]
    {y : StateT σ Option α} {g : τ → α × τ} (hq : p ↔ q (view s))
    (hx : p → SimulatesAt view inv x f s) (hy : ¬p → SimulatesAt view inv y g s) :
    SimulatesAt view inv (if p then x else y) (fun t => if q t then f t else g t) s := by
  by_cases hp : p
  · have hqs := hq.mp hp
    simpa [SimulatesAt, hp, hqs] using hx hp
  · have hqs := mt hq.mpr hp
    simpa [SimulatesAt, hp, hqs] using hy hp

/-- What a run of the program must have done. -/
theorem Simulates.inversion (h : Simulates view inv x f) {s s' : σ} {a : α} (hs : inv s)
    (hrun : x.run s = some (a, s')) :
    a = (f (view s)).1 ∧ view s' = (f (view s)).2 ∧ inv s' := by
  obtain ⟨s₁, hrun₁, hview₁, hinv₁⟩ := h s hs
  obtain ⟨rfl, rfl⟩ := Prod.mk.inj (Option.some.inj (hrun₁.symm.trans hrun))
  exact ⟨rfl, hview₁, hinv₁⟩

end Simulates

/-- Every run of the program leads to a state that `R` relates to the one before. -/
def Relates (R : σ → σ → Prop) (x : StateT σ Option α) : Prop :=
  ∀ s a s', x.run s = some (a, s') → R s s'

section Relates

variable {R R' : σ → σ → Prop} {x y : StateT σ Option α}

theorem Relates.mono (hx : Relates R x) (hR : ∀ s s', R s s' → R' s s') : Relates R' x :=
  fun s a s' hrun => hR s s' (hx s a s' hrun)

theorem Relates.modify {f : σ → σ} (hf : ∀ s, R s (f s)) :
    Relates R (modify f : StateT σ Option Unit) := by
  intro s _ s' hrun
  obtain ⟨-, rfl⟩ := Prod.mk.inj (Option.some.inj hrun)
  exact hf s

theorem Relates.ite {p : Prop} [Decidable p] (hx : p → Relates R x) (hy : ¬p → Relates R y) :
    Relates R (if p then x else y) := by
  by_cases hp : p
  · simpa [hp] using hx hp
  · simpa [hp] using hy hp

variable [IsPreorder σ R]

theorem Relates.pure (a : α) : Relates R (pure a : StateT σ Option α) := by
  intro s _ s' hrun
  obtain ⟨-, rfl⟩ := Prod.mk.inj (Option.some.inj hrun)
  exact refl_of R s

theorem Relates.get : Relates R (get : StateT σ Option σ) := by
  intro s _ s' hrun
  obtain ⟨-, rfl⟩ := Prod.mk.inj (Option.some.inj hrun)
  exact refl_of R s

theorem Relates.bind {f : α → StateT σ Option β} (hx : Relates R x)
    (hf : ∀ a, Relates R (f a)) : Relates R (x >>= f) := by
  intro s b s' hrun
  rw [StateT.run_bind, Option.bind_eq_bind, Option.bind_eq_some_iff] at hrun
  obtain ⟨⟨a, s₁⟩, hfirst, hrest⟩ := hrun
  exact trans_of R (hx s a s₁ hfirst) (hf a s₁ b s' hrest)

end Relates

/-- A run of commands from `s`; each is executed in a state that allows it. -/
inductive Run (exec : κ → StateT σ Option α) (allowed : σ → κ → Prop) (s : σ) : List κ → σ → Prop
  | nil : Run exec allowed s [] s
  | snoc {ks : List κ} {s₁ s₂ : σ} {k : κ} {a : α} :
    Run exec allowed s ks s₁ → allowed s₁ k → (exec k).run s₁ = some (a, s₂) →
      Run exec allowed s (ks ++ [k]) s₂

section Run

variable {exec : κ → StateT σ Option α} {allowed allowed' : σ → κ → Prop} {s s' : σ} {ks : List κ}

/-- An invariant that every allowed step keeps holds after every run. -/
theorem Run.invariant {I : σ → Prop}
    (hstep : ∀ s₁ s₂ k a, I s₁ → allowed s₁ k → (exec k).run s₁ = some (a, s₂) → I s₂)
    (hs : I s) (hrun : Run exec allowed s ks s') : I s' := by
  induction hrun with
  | nil => exact hs
  | snoc _ hallowed hexec ih => exact hstep _ _ _ _ ih hallowed hexec

/-- Commands that simulate total functions do so over a whole run. -/
theorem Run.simulated {view : σ → τ} {inv : σ → Prop} {step : κ → τ → α × τ}
    (hsim : ∀ k, Simulates view inv (exec k) (step k)) (hs : inv s)
    (hrun : Run exec allowed s ks s') :
    inv s' ∧ view s' = ks.foldl (fun t k => (step k t).2) (view s) := by
  induction hrun with
  | nil => exact ⟨hs, rfl⟩
  | snoc _ _ hexec ih =>
    obtain ⟨-, hview, hinv⟩ := (hsim _).inversion ih.1 hexec
    exact ⟨hinv, by rw [hview, ih.2, List.foldl_append]; rfl⟩

/-- Every list of commands has a run. -/
theorem Run.exists_of_simulates {view : σ → τ} {inv : σ → Prop} {step : κ → τ → α × τ}
    (hsim : ∀ k, Simulates view inv (exec k) (step k)) (hs : inv s) (ks : List κ) :
    ∃ s', Run exec (fun _ _ => True) s ks s' ∧
      view s' = ks.foldl (fun t k => (step k t).2) (view s) := by
  induction ks using List.reverseRecOn with
  | nil => exact ⟨s, .nil, rfl⟩
  | append_singleton ks k ih =>
    obtain ⟨s₁, hrun, hview⟩ := ih
    obtain ⟨s₂, hexec, hview₂, -⟩ := hsim k s₁ (hrun.simulated hsim hs).1
    refine ⟨s₂, hrun.snoc trivial hexec, ?_⟩
    rw [hview₂, hview, List.foldl_append]
    rfl

theorem Run.append {ks' : List κ} {s'' : σ} (hrun : Run exec allowed s ks s')
    (hrun' : Run exec allowed s' ks' s'') : Run exec allowed s (ks ++ ks') s'' := by
  induction hrun' with
  | nil => rwa [List.append_nil]
  | snoc _ hallowed hexec ih =>
    rw [← List.append_assoc]
    exact .snoc ih hallowed hexec

theorem Run.mono (h : ∀ s k, allowed s k → allowed' s k) (hrun : Run exec allowed s ks s') :
    Run exec allowed' s ks s' := by
  induction hrun with
  | nil => exact .nil
  | snoc _ hallowed hexec ih => exact .snoc ih (h _ _ hallowed) hexec

/-- A property that holds before a run and not after it is broken by one of the commands. -/
theorem Run.exists_breaking {P : σ → Prop} (hrun : Run exec allowed s ks s') (hs : P s)
    (hs' : ¬P s') :
    ∃ before k later s₁ s₂ a, ks = before ++ k :: later ∧ Run exec allowed s before s₁ ∧
      allowed s₁ k ∧ (exec k).run s₁ = some (a, s₂) ∧ Run exec allowed s₂ later s' ∧
        P s₁ ∧ ¬P s₂ := by
  induction hrun with
  | nil => exact absurd hs hs'
  | @snoc ks s₁ s₂ k a hbefore hallowed hexec ih =>
    by_cases hbroken : P s₁
    · exact ⟨ks, k, [], s₁, s₂, a, rfl, hbefore, hallowed, hexec, .nil, hbroken, hs'⟩
    · obtain ⟨before, k', later, s₃, s₄, a', rfl, hrest⟩ := ih hbroken
      obtain ⟨hfirst, hallowed', hexec', hlater, hkept, hbreaks⟩ := hrest
      refine ⟨before, k', later ++ [k], s₃, s₄, a', ?_, hfirst, hallowed', hexec',
        hlater.snoc hallowed hexec, hkept, hbreaks⟩
      rw [List.append_assoc, List.cons_append]

end Run

end EtyOS.Library
