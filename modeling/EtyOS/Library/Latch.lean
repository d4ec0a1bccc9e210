import Mathlib.Tactic

/-!
# Latches over a history

A latch is set by some entries of a history and reset by others, and keeps its
state at the rest. `Latched` says this of the history as a whole. Two latches
that different entries work are compared with the single latch that all these
entries work.
-/

namespace EtyOS.Library

section Latch

variable {α : Type}

/-- An entry has set the latch, and none behind it has reset it. Whether an
entry sets the latch may depend on what was there before. -/
def Latched (S : List α → α → Prop) (R : α → Prop) (l : List α) : Prop :=
  ∃ front a back, l = front ++ a :: back ∧ S front a ∧ ∀ b ∈ back, ¬R b

variable {S : List α → α → Prop} {R : α → Prop} {l : List α} {a : α}

theorem not_latched_nil : ¬Latched S R [] := by
  rintro ⟨front, a, back, heq, -, -⟩
  simp at heq

/-- One more entry sets the latch, or leaves it set. -/
theorem latched_concat : Latched S R (l ++ [a]) ↔ S l a ∨ Latched S R l ∧ ¬R a := by
  constructor
  · rintro ⟨front, b, back, heq, hset, hback⟩
    rcases List.eq_nil_or_concat back with rfl | ⟨back, c, rfl⟩
    · obtain ⟨rfl, hlast⟩ := List.append_inj' heq rfl
      obtain rfl := List.singleton_inj.mp hlast
      exact Or.inl hset
    · rw [List.concat_eq_append, ← List.cons_append, ← List.append_assoc] at heq
      obtain ⟨rfl, hlast⟩ := List.append_inj' heq rfl
      obtain rfl := List.singleton_inj.mp hlast
      refine Or.inr ⟨⟨front, b, back, rfl, hset, fun d hd => hback d ?_⟩, hback a ?_⟩
      · simp [hd]
      · simp
  · rintro (hset | ⟨⟨front, b, back, rfl, hset, hback⟩, ha⟩)
    · exact ⟨l, a, [], rfl, hset, by simp⟩
    · refine ⟨front, b, back ++ [a], by simp, hset, ?_⟩
      intro c hc
      rcases List.mem_append.mp hc with hc | hc
      · exact hback c hc
      · rwa [List.mem_singleton.mp hc]

/-- Without an entry that sets the latch it is not set. -/
theorem not_latched_of_forall (h : ∀ front, ∀ a ∈ l, ¬S front a) : ¬Latched S R l := by
  rintro ⟨front, a, back, rfl, hset, -⟩
  exact h front a (by simp) hset

end Latch

section Pair

variable {α : Type} (S R S' R' : α → Prop)

/-- The latch that the entries of both latches work. -/
def LatchedEither (l : List α) : Prop :=
  Latched (fun _ a => S a ∨ S' a) (fun a => R a ∨ R' a) l

/-- Since one of the latches was reset while the other was set, no entry has
worked either of them. -/
def ResetUnder (l : List α) : Prop :=
  Latched (fun front a => R a ∧ Latched (fun _ => S') R' front ∨ R' a ∧ Latched (fun _ => S) R front)
    (fun a => S a ∨ R a ∨ S' a ∨ R' a) l

variable {S R S' R'} {l : List α}

/-- What sets the common latch sets one of the two. -/
theorem LatchedEither.or (h : LatchedEither S R S' R' l) :
    Latched (fun _ => S) R l ∨ Latched (fun _ => S') R' l := by
  obtain ⟨front, a, back, rfl, hset, hback⟩ := h
  rcases hset with hset | hset
  · exact Or.inl ⟨front, a, back, rfl, hset, fun b hb hreset => hback b hb (Or.inl hreset)⟩
  · exact Or.inr ⟨front, a, back, rfl, hset, fun b hb hreset => hback b hb (Or.inr hreset)⟩

/-- The common latch is reset too early exactly when an entry resets one of the
two while the other is set. -/
theorem resetUnder_iff (hdisjoint : ∀ a, ¬((S a ∨ S' a) ∧ (R a ∨ R' a)))
    (hreset : ∀ a, ¬(R a ∧ R' a)) : ResetUnder S R S' R' l ↔
    (Latched (fun _ => S) R l ∨ Latched (fun _ => S') R' l) ∧ ¬LatchedEither S R S' R' l := by
  induction l using List.reverseRecOn with
  | nil =>
    unfold ResetUnder
    simp [not_latched_nil]
  | append_singleton l a ih =>
    have ha := hdisjoint a
    have ha' := hreset a
    have hor : LatchedEither S R S' R' l → _ := LatchedEither.or
    unfold ResetUnder LatchedEither at ih hor ⊢
    rw [latched_concat, latched_concat, latched_concat, latched_concat, ih]
    -- what is left is about the entry and the three latches before it
    generalize Latched (fun _ => S) R l = held at hor ⊢
    generalize Latched (fun _ => S') R' l = held' at hor ⊢
    generalize Latched (fun _ a => S a ∨ S' a) (fun a => R a ∨ R' a) l = either at hor ⊢
    clear ih
    grind

/-- The common latch stands for both exactly when this does not happen. -/
theorem latchedEither_iff_or (hdisjoint : ∀ a, ¬((S a ∨ S' a) ∧ (R a ∨ R' a)))
    (hreset : ∀ a, ¬(R a ∧ R' a)) : (LatchedEither S R S' R' l ↔
    Latched (fun _ => S) R l ∨ Latched (fun _ => S') R' l) ↔ ¬ResetUnder S R S' R' l := by
  rw [resetUnder_iff hdisjoint hreset]
  constructor
  · rintro heq ⟨hor, heither⟩
    exact heither (heq.mpr hor)
  · intro h
    exact ⟨LatchedEither.or, fun hor => by_contra fun heither => h ⟨hor, heither⟩⟩

/-- A history in which no entry works the second latch. -/
theorem not_resetUnder_of_forall (h : ∀ a ∈ l, ¬S' a ∧ ¬R' a) : ¬ResetUnder S R S' R' l := by
  rintro ⟨front, a, back, rfl, hreset, -⟩
  rcases hreset with ⟨-, front', b, back', rfl, hset, -⟩ | ⟨hreset, -⟩
  · exact (h b (by simp)).1 hset
  · exact (h a (by simp)).2 hreset

end Pair

end EtyOS.Library
