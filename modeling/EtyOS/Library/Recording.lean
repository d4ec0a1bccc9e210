import EtyOS.Library.Simulation

/-!
# Programs that record what they do

A recording program is a program of the monad `m` that also appends entries to
a record. `Erases` says which program is left without the record. Where the
record is a part of the state, `Marks` says that the entries of a run depend on
its result alone.
-/

namespace EtyOS.Library

/-- Programs of `m` with a record of entries in `ν`. -/
abbrev Recording (ν : Type) (m : Type → Type) := StateT (List ν) m

section Recording

variable {ν α β : Type} {m : Type → Type} [Monad m]

/-- Append an entry. -/
def note (v : ν) : Recording ν m Unit := modify fun l => l ++ [v]

/-- Without its record, the program is `X`. -/
def Erases (x : Recording ν m α) (X : m α) : Prop := ∀ l, Prod.fst <$> x.run l = X

variable {x : Recording ν m α} {X : m α} {y : α → Recording ν m β} {Y : α → m β}

theorem Erases.ite {p : Prop} [Decidable p] {y : Recording ν m α} {Y : m α}
    (hx : p → Erases x X) (hy : ¬p → Erases y Y) :
    Erases (if p then x else y) (if p then X else Y) := by
  by_cases hp : p
  · simpa [hp] using hx hp
  · simpa [hp] using hy hp

@[simp] theorem run_note (v : ν) (l : List ν) :
    (note v : Recording ν m Unit).run l = pure ((), l ++ [v]) := rfl

variable [LawfulMonad m]

@[simp] theorem run_lift (X : m α) (l : List ν) :
    (liftM X : Recording ν m α).run l = (fun a => (a, l)) <$> X := by
  simp [liftM, monadLift, MonadLift.monadLift]

theorem Erases.lift (X : m α) : Erases (liftM X : Recording ν m α) X := by
  intro l
  simp

theorem Erases.pure (a : α) : Erases (pure a : Recording ν m α) (pure a) := by
  intro l
  simp

theorem Erases.bind (hx : Erases x X) (hy : ∀ a, Erases (y a) (Y a)) :
    Erases (x >>= y) (X >>= Y) := by
  intro l
  have hrest : ∀ a l', Prod.fst <$> (y a).run l' = Y a := fun a l' => hy a l'
  rw [StateT.run_bind, map_bind, ← hx l, bind_map_left]
  simp only [hrest]

theorem Erases.lift_bind (X : m α) (hy : ∀ a, Erases (y a) (Y a)) :
    Erases ((liftM X : Recording ν m α) >>= y) (X >>= Y) :=
  Erases.bind (Erases.lift X) hy

/-- A part that records nothing comes first, and comes back. -/
theorem run_lift_bind {σ : Type} {X : StateT σ Option α} {y : α → Recording ν (StateT σ Option) β}
    {s s' : σ} {a : α} (hrun : X.run s = some (a, s')) (l : List ν) :
    (((liftM X : Recording ν (StateT σ Option) α) >>= y).run l).run s = ((y a).run l).run s' := by
  simp [StateT.run_bind, hrun]

/-- A run of the program is a run of the recording program. -/
theorem Erases.exists_run {σ : Type} {x : Recording ν (StateT σ Option) α} {X : StateT σ Option α}
    (h : Erases x X) {s s' : σ} {a : α} (hrun : X.run s = some (a, s')) :
    ∃ l, (x.run []).run s = some ((a, l), s') := by
  rw [← h [], StateT.run_map, Option.map_eq_map, Option.map_eq_some_iff] at hrun
  obtain ⟨⟨⟨b, l⟩, s₁⟩, hx, heq⟩ := hrun
  obtain ⟨rfl, rfl⟩ := Prod.mk.inj heq
  exact ⟨l, hx⟩

end Recording

section Records

variable {σ ν α β : Type} {P : ν → Prop}

/-- Every entry that a run appends satisfies `P`. -/
def Records (P : ν → Prop) (x : Recording ν (StateT σ Option) α) : Prop :=
  ∀ l s r s', (x.run l).run s = some (r, s') → ∃ l', r.2 = l ++ l' ∧ ∀ v ∈ l', P v

variable {x x' : Recording ν (StateT σ Option) α} {y : α → Recording ν (StateT σ Option) β}

theorem Records.pure (a : α) : Records P (pure a : Recording ν (StateT σ Option) α) := by
  intro l s r s' hrun
  obtain ⟨rfl, -⟩ := Prod.mk.inj (Option.some.inj hrun)
  exact ⟨[], by simp, by simp⟩

theorem Records.lift (X : StateT σ Option α) :
    Records P (liftM X : Recording ν (StateT σ Option) α) := by
  intro l s r s' hrun
  rw [run_lift, StateT.run_map, Option.map_eq_map, Option.map_eq_some_iff] at hrun
  obtain ⟨q, -, hq⟩ := hrun
  obtain ⟨rfl, -⟩ := Prod.mk.inj hq
  exact ⟨[], by simp, by simp⟩

theorem Records.bind (hx : Records P x) (hy : ∀ a, Records P (y a)) : Records P (x >>= y) := by
  intro l s r s' hrun
  rw [StateT.run_bind, StateT.run_bind, Option.bind_eq_bind, Option.bind_eq_some_iff] at hrun
  obtain ⟨⟨⟨a, l₁⟩, s₁⟩, hfirst, hrest⟩ := hrun
  obtain ⟨new, rfl, hnew⟩ := hx l s _ s₁ hfirst
  obtain ⟨later, hlater, hall⟩ := hy a _ s₁ r s' hrest
  refine ⟨new ++ later, by rw [hlater, List.append_assoc], ?_⟩
  intro v hv
  exact (List.mem_append.mp hv).elim (hnew v) (hall v)

theorem Records.ite {p : Prop} [Decidable p] (hx : p → Records P x) (hx' : ¬p → Records P x') :
    Records P (if p then x else x') := by
  by_cases hp : p
  · simpa [hp] using hx hp
  · simpa [hp] using hx' hp

end Records

section Relates

variable {σ ν α β : Type} {R : σ → σ → Prop}

/-- With any record to begin with, the program leads to states that `R` relates. -/
def RelatesAny (R : σ → σ → Prop) (x : Recording ν (StateT σ Option) α) : Prop :=
  ∀ l, Relates R (x.run l)

variable {x x' : Recording ν (StateT σ Option) α} {y : α → Recording ν (StateT σ Option) β}

theorem RelatesAny.ite {p : Prop} [Decidable p] (hx : p → RelatesAny R x)
    (hx' : ¬p → RelatesAny R x') : RelatesAny R (if p then x else x') := by
  by_cases hp : p
  · simpa [hp] using hx hp
  · simpa [hp] using hx' hp

variable [IsPreorder σ R]

theorem RelatesAny.pure (a : α) : RelatesAny R (pure a : Recording ν (StateT σ Option) α) :=
  fun _ => Relates.pure _

theorem RelatesAny.note (v : ν) :
    RelatesAny R (note v : Recording ν (StateT σ Option) Unit) := fun _ => Relates.pure _

theorem RelatesAny.lift {X : StateT σ Option α} (hX : Relates R X) :
    RelatesAny R (liftM X : Recording ν (StateT σ Option) α) := by
  intro l
  rw [run_lift, map_eq_pure_bind]
  exact hX.bind fun _ => Relates.pure _

theorem RelatesAny.bind (hx : RelatesAny R x) (hy : ∀ a, RelatesAny R (y a)) :
    RelatesAny R (x >>= y) := fun l => (hx l).bind fun r => hy r.1 r.2

end Relates

section Appends

variable {σ ν α β : Type}

/-- From `s` the program comes back with `a` and `s'`, and appends the entries `new`. -/
def Appends (x : Recording ν (StateT σ Option) α) (s : σ) (new : List ν) (a : α) (s' : σ) :
    Prop := ∀ l, (x.run l).run s = some ((a, l ++ new), s')

variable {x : Recording ν (StateT σ Option) α} {y : α → Recording ν (StateT σ Option) β}
  {s s' s'' : σ} {new later : List ν} {a : α} {b : β}

theorem Appends.pure (a : α) (s : σ) :
    Appends (pure a : Recording ν (StateT σ Option) α) s [] a s := by
  intro l
  rw [List.append_nil]
  rfl

theorem Appends.note (v : ν) (s : σ) :
    Appends (note v : Recording ν (StateT σ Option) Unit) s [v] () s := fun _ => rfl

theorem Appends.lift {X : StateT σ Option α} (hrun : X.run s = some (a, s')) :
    Appends (liftM X : Recording ν (StateT σ Option) α) s [] a s' := by
  intro l
  rw [run_lift, StateT.run_map, hrun, List.append_nil]
  rfl

theorem Appends.bind (hx : Appends x s new a s') (hy : Appends (y a) s' later b s'') :
    Appends (x >>= y) s (new ++ later) b s'' := by
  intro l
  rw [StateT.run_bind, StateT.run_bind, hx l, Option.bind_eq_bind, Option.bind_some, hy,
    List.append_assoc]

end Appends

section Yields

variable {ν α β : Type} {P Q : ν → Prop}

/-- The program comes back with `a`, and every entry that it appends satisfies `P`. -/
def Yields (P : ν → Prop) (x : Recording ν Option α) (a : α) : Prop :=
  ∀ l, ∃ l', x.run l = some (a, l ++ l') ∧ ∀ v ∈ l', P v

variable {x : Recording ν Option α} {y : α → Recording ν Option β} {a : α} {b : β}

theorem Yields.pure (a : α) : Yields P (pure a : Recording ν Option α) a :=
  fun l => ⟨[], by rw [List.append_nil]; rfl, by simp⟩

theorem Yields.note {v : ν} (h : P v) : Yields P (note v : Recording ν Option Unit) () :=
  fun l => ⟨[v], rfl, by simpa using h⟩

theorem Yields.bind (hx : Yields P x a) (hy : Yields P (y a) b) : Yields P (x >>= y) b := by
  intro l
  obtain ⟨new, hfirst, hnew⟩ := hx l
  obtain ⟨later, hrest, hlater⟩ := hy (l ++ new)
  refine ⟨new ++ later, ?_, ?_⟩
  · rw [StateT.run_bind, hfirst, Option.bind_eq_bind, Option.bind_some, hrest, List.append_assoc]
  · intro v hv
    exact (List.mem_append.mp hv).elim (hnew v) (hlater v)

theorem Yields.mono (hx : Yields P x a) (hPQ : ∀ v, P v → Q v) : Yields Q x a := by
  intro l
  obtain ⟨l', hrun, hall⟩ := hx l
  exact ⟨l', hrun, fun v hv => hPQ v (hall v hv)⟩

theorem Yields.ite {p : Prop} [Decidable p] {x' : Recording ν Option α}
    (hx : p → Yields P x a) (hx' : ¬p → Yields P x' a) : Yields P (if p then x else x') a := by
  by_cases hp : p
  · simpa [hp] using hx hp
  · simpa [hp] using hx' hp

end Yields

section Marks

variable {σ ν α β : Type} {entries : σ → List ν}

/-- Every run appends to the entries of the state what `f` says about the result. -/
def Marks (entries : σ → List ν) (x : StateT σ Option α) (f : α → List ν) : Prop :=
  ∀ s a s', x.run s = some (a, s') → entries s' = entries s ++ f a

variable {x x' : StateT σ Option α} {y : α → StateT σ Option β} {f : α → List ν} {g : β → List ν}

theorem Marks.pure {a : α} (h : f a = []) : Marks entries (pure a : StateT σ Option α) f := by
  intro s b s' hrun
  obtain ⟨rfl, rfl⟩ := Prod.mk.inj (Option.some.inj hrun)
  rw [h, List.append_nil]

/-- A program that always comes back, and leaves the entries alone. -/
theorem Marks.of_run (h : ∀ s, ∃ a s', x.run s = some (a, s') ∧ entries s' = entries s) :
    Marks entries x fun _ => [] := by
  intro s a s' hrun
  obtain ⟨b, s₁, hrun₁, hsame⟩ := h s
  obtain ⟨-, rfl⟩ := Prod.mk.inj (Option.some.inj (hrun₁.symm.trans hrun))
  rw [hsame, List.append_nil]

/-- A part that marks nothing comes first. -/
theorem Marks.bind (hx : Marks entries x fun _ => []) (hy : ∀ a, Marks entries (y a) g) :
    Marks entries (x >>= y) g := by
  intro s b s' hrun
  rw [StateT.run_bind] at hrun
  obtain ⟨⟨a, s₁⟩, hfirst, hrest⟩ := Option.bind_eq_some_iff.mp hrun
  rw [hy a s₁ b s' hrest, hx s a s₁ hfirst, List.append_nil]

theorem Marks.ite {p : Prop} [Decidable p] (hx : p → Marks entries x f)
    (hx' : ¬p → Marks entries x' f) : Marks entries (if p then x else x') f := by
  split
  · exact hx ‹_›
  · exact hx' ‹_›

/-- The entries of a program that appends `l` exactly when its status is not 0. -/
def onFailure (l : List ν) (rc : ℤ) : List ν := if rc = 0 then [] else l

variable {z w : StateT σ Option ℤ} {l : List ν}

/-- Two parts with an early return between them, when a failure of the first one appends `l`
and so does the second one for the results in question. -/
theorem Marks.andThen_of {h : ℤ → List ν} (hz : Marks entries z (onFailure l)) (hfail : h (-1) = l)
    (hw : Marks entries w h) :
    Marks entries (do let rc ← z; if rc ≠ 0 then return -1 else w) h := by
  intro s rc s' hrun
  rw [StateT.run_bind] at hrun
  obtain ⟨⟨rc₁, s₁⟩, hfirst, hrest⟩ := Option.bind_eq_some_iff.mp hrun
  have hmarked := hz s rc₁ s₁ hfirst
  rw [onFailure] at hmarked
  by_cases hrc : rc₁ = 0
  · rw [if_pos hrc, List.append_nil] at hmarked
    simp only [hrc, ne_eq, not_true, if_false] at hrest
    rw [hw s₁ rc s' hrest, hmarked]
  · rw [if_neg hrc] at hmarked
    simp only [ne_eq, hrc, not_false_eq_true, if_true] at hrest
    obtain ⟨rfl, rfl⟩ := Prod.mk.inj (Option.some.inj hrest)
    rw [hmarked, hfail]

/-- The entries of a failure are appended once, by the part that has failed. -/
theorem Marks.andThen (hz : Marks entries z (onFailure l)) (hw : Marks entries w (onFailure l)) :
    Marks entries (do let rc ← z; if rc ≠ 0 then return -1 else w) (onFailure l) :=
  hz.andThen_of rfl hw

/-- The same when the last part appends the entries in any case. -/
theorem Marks.andFinally (hz : Marks entries z (onFailure l)) (hw : Marks entries w fun _ => l) :
    Marks entries (do let rc ← z; if rc ≠ 0 then return -1 else w) fun _ => l :=
  hz.andThen_of rfl hw

end Marks

end EtyOS.Library
