import Mathlib.Data.List.Forall2

/-! # Steps that can fail

A chain of steps succeeds when all of them do, and fails with the first that does not.
-/

namespace Dataflow

variable {ε α β : Type}

theorem bind_eq_ok_iff {x : Except ε α} {f : α → Except ε β} {b : β} :
    (x >>= f) = .ok b ↔ ∃ a, x = .ok a ∧ f a = .ok b := by
  cases x with
  | error e => simp [bind, Except.bind]
  | ok a => simp [bind, Except.bind]

theorem pure_eq_ok_iff {a b : α} : (pure a : Except ε α) = .ok b ↔ a = b := by
  simp [pure, Except.pure]

theorem map_eq_ok_iff {x : Except ε α} {f : α → β} {b : β} :
    x.map f = .ok b ↔ ∃ a, x = .ok a ∧ f a = b := by
  cases x with
  | error e => simp [Except.map]
  | ok a => simp [Except.map]

theorem map_eq_error_iff {x : Except ε α} {f : α → β} {e : ε} :
    x.map f = .error e ↔ x = .error e := by
  cases x with
  | error e => simp [Except.map]
  | ok a => simp [Except.map]

theorem mapError_eq_ok_iff {ε' : Type} {x : Except ε α} {f : ε → ε'} {a : α} :
    x.mapError f = .ok a ↔ x = .ok a := by
  cases x with
  | error e => simp [Except.mapError]
  | ok a => simp [Except.mapError]

theorem mapError_eq_error_iff {ε' : Type} {x : Except ε α} {f : ε → ε'} {e' : ε'} :
    x.mapError f = .error e' ↔ ∃ e, x = .error e ∧ f e = e' := by
  cases x with
  | error e => simp [Except.mapError]
  | ok a => simp [Except.mapError]

/-- A property that every step keeps is kept by all of them. -/
theorem foldlM_preserves {f : β → α → Except ε β} {motive : β → Prop} {as : List α}
    (hf : ∀ b, ∀ a ∈ as, ∀ b', f b a = .ok b' → motive b → motive b') {b b' : β}
    (h : as.foldlM f b = .ok b') (hb : motive b) : motive b' := by
  induction as generalizing b with
  | nil => exact pure_eq_ok_iff.mp h ▸ hb
  | cons a as ih =>
      rw [List.foldlM_cons, bind_eq_ok_iff] at h
      obtain ⟨middle, hstep, hrest⟩ := h
      refine ih (fun b a' ha' => hf b a' (List.mem_cons_of_mem _ ha')) hrest ?_
      exact hf b a List.mem_cons_self middle hstep hb

theorem foldlM_congr {f g : β → α → Except ε β} {as : List α}
    (h : ∀ a ∈ as, ∀ b, f b a = g b a) {b : β} : as.foldlM f b = as.foldlM g b := by
  induction as generalizing b with
  | nil => rfl
  | cons a as ih =>
      rw [List.foldlM_cons, List.foldlM_cons, h a List.mem_cons_self]
      exact bind_congr fun b => ih fun a' ha' => h a' (List.mem_cons_of_mem _ ha')

/-- Steps on one kind of states do what the corresponding steps on another kind do, and so do all of
them one after the other. -/
theorem map_foldlM {γ : Type} {f : β → α → Except ε β} {g : γ → α → Except ε γ} (view : β → γ)
    (motive : β → Prop) (hview : ∀ b a, motive b → (f b a).map view = g (view b) a)
    (hmotive : ∀ b a b', f b a = .ok b' → motive b → motive b') {l : List α} {b : β}
    (hb : motive b) : (l.foldlM f b).map view = l.foldlM g (view b) := by
  induction l generalizing b with
  | nil => rfl
  | cons a l ih =>
      rw [List.foldlM_cons, List.foldlM_cons, ← hview b a hb]
      cases hstep : f b a with
      | error e => rfl
      | ok middle => exact ih (hmotive b a middle hstep hb)

/-- Where only looking up can fail, all of it succeeds just when every look-up does. -/
theorem exists_foldlM_map_eq_ok_iff {γ : Type} {find : α → Except ε γ} {add : β → α → γ → β}
    {as : List α} {b : β} :
    (∃ b', as.foldlM (fun b a => (find a).map (add b a)) b = .ok b') ↔
      ∀ a ∈ as, ∃ c, find a = .ok c := by
  induction as generalizing b with
  | nil => simp [pure, Except.pure]
  | cons a as ih =>
      rw [List.foldlM_cons, List.forall_mem_cons]
      cases hfind : find a with
      | error e => simp [Except.map, bind, Except.bind]
      | ok c => simpa [Except.map, bind, Except.bind] using ih

/-- The first look-up that fails is the one that is reported. -/
theorem foldlM_map_eq_error {γ : Type} {find : α → Except ε γ} {add : β → α → γ → β} {as : List α}
    {b : β} {e : ε} (h : as.foldlM (fun b a => (find a).map (add b a)) b = .error e) :
    ∃ before a after, as = before ++ a :: after ∧ (∀ a' ∈ before, ∃ c, find a' = .ok c) ∧
      find a = .error e := by
  induction as generalizing b with
  | nil => cases h
  | cons a as ih =>
      rw [List.foldlM_cons] at h
      cases hfind : find a with
      | error e' =>
          rw [hfind] at h
          cases h
          exact ⟨[], a, as, rfl, by simp, hfind⟩
      | ok c =>
          rw [hfind] at h
          obtain ⟨before, a', after, rfl, hbefore, herror⟩ := ih h
          exact ⟨a :: before, a', after, rfl,
            List.forall_mem_cons.mpr ⟨⟨c, hfind⟩, hbefore⟩, herror⟩

theorem mapM_map_result {γ : Type} {f : α → Except ε β} {g : β → γ} (as : List α) :
    (as.mapM fun a => (f a).map g) = (as.mapM f).map (List.map g) := by
  induction as with
  | nil => rfl
  | cons a as ih =>
      rw [List.mapM_cons, List.mapM_cons, ih]
      cases f a with
      | error e => rfl
      | ok b => cases as.mapM f <;> rfl

/-- A list is gone through without a failure just when no element fails. -/
theorem mapM_eq_ok_iff {f : α → Except ε β} {as : List α} {bs : List β} :
    as.mapM f = .ok bs ↔ List.Forall₂ (fun a b => f a = .ok b) as bs := by
  induction as generalizing bs with
  | nil => simp [pure, Except.pure, eq_comm]
  | cons a as ih =>
      simp only [List.mapM_cons, bind_eq_ok_iff, pure_eq_ok_iff, ih]
      constructor
      · rintro ⟨b, hb, bs, hbs, rfl⟩
        exact .cons hb hbs
      · rintro (_ | ⟨hb, hbs⟩)
        exact ⟨_, hb, _, hbs, rfl⟩

theorem exists_of_mem_mapM {f : α → Except ε β} {as : List α} {bs : List β}
    (h : as.mapM f = .ok bs) {b : β} (hb : b ∈ bs) : ∃ a ∈ as, f a = .ok b := by
  induction mapM_eq_ok_iff.mp h with
  | nil => cases hb
  | cons ha _ ih =>
      rcases List.mem_cons.mp hb with rfl | hb
      · exact ⟨_, List.mem_cons_self, ha⟩
      · obtain ⟨a, hmem, hab⟩ := ih (mapM_eq_ok_iff.mpr ‹_›) hb
        exact ⟨a, List.mem_cons_of_mem _ hmem, hab⟩

/-- Where it is known of every element when it succeeds, and with what, so it is of the list. -/
theorem mapM_eq_ok_iff_of_forall {f : α → Except ε β} {p : α → Prop} {g : α → β} {as : List α}
    (h : ∀ a ∈ as, ∀ b, f a = .ok b ↔ p a ∧ b = g a) {bs : List β} :
    as.mapM f = .ok bs ↔ (∀ a ∈ as, p a) ∧ bs = as.map g := by
  induction as generalizing bs with
  | nil => simp [pure, Except.pure, eq_comm]
  | cons a as ih =>
      have ih := @ih fun a' ha' => h a' (List.mem_cons_of_mem _ ha')
      simp only [List.mapM_cons, bind_eq_ok_iff, pure_eq_ok_iff, ih, h a List.mem_cons_self,
        List.forall_mem_cons, List.map_cons]
      constructor
      · rintro ⟨_, ⟨ha, rfl⟩, _, ⟨has, rfl⟩, rfl⟩
        exact ⟨⟨ha, has⟩, rfl⟩
      · rintro ⟨⟨ha, has⟩, rfl⟩
        exact ⟨_, ⟨ha, rfl⟩, _, ⟨has, rfl⟩, rfl⟩

end Dataflow
