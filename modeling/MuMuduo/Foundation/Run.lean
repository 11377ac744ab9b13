/-
# Runs of a step function

A component is given by a step function `step : σ → α → Option σ`.  The label
`a : α` names the step and fixes every choice made in it (which thread moves,
what the kernel answers), and `none` says that the step cannot be taken.  With
the choices in the labels a run is a list of labels, so that a property of
every interleaving is a property of every list.

`exec` is the state a run ends in, `Along C` says that each of its steps is
taken in a state that meets `C`, and `Safe P` that every step succeeds and every
state on the way satisfies `P`.  `collect f` is what the steps give, one after the
other, so that what a run ought to have produced can be said without the state
keeping a record of it (`exec_collect`).  The rules below are the induction over runs,
stated once: an invariant of one step is an invariant of the run
(`exec_invariant`), two step conditions that agree under an invariant agree
along the run (`along_iff_along`), and a step-by-step criterion for `P` is a
criterion for the whole run (`safe_iff_along`).
-/

import Mathlib.Data.Option.Basic
import Mathlib.Tactic.Common

namespace MuMuduo
namespace Foundation

variable {σ τ α β : Type*}

/-- The state after the labels `as`, or `none` if one of the steps cannot be
taken. -/
def exec (step : σ → α → Option σ) : σ → List α → Option σ
  | s, [] => some s
  | s, a :: as => (step s a).bind fun s' => exec step s' as

/-- Every step of the run meets `C` in the state it is taken from. -/
def Along (step : σ → α → Option σ) (C : σ → α → Prop) : σ → List α → Prop
  | _, [] => True
  | s, a :: as => C s a ∧ ∀ s', step s a = some s' → Along step C s' as

/-- No step of the run fails, and `P` holds in every state on the way. -/
def Safe (step : σ → α → Option σ) (P : σ → Prop) : σ → List α → Prop
  | s, [] => P s
  | s, a :: as => P s ∧ ∃ s', step s a = some s' ∧ Safe step P s' as

/-- What the steps of the run give, in order: `f s a` for the label `a` in the state
`s` it is taken from. -/
def collect (step : σ → α → Option σ) (f : σ → α → List β) : σ → List α → List β
  | _, [] => []
  | s, a :: as => f s a ++ (step s a).elim [] fun s' => collect step f s' as

section Exec

variable {step : σ → α → Option σ}

/-- A condition on the steps of a given run can be evaluated. -/
instance Along.decidable {C : σ → α → Prop} [∀ s a, Decidable (C s a)] :
    ∀ s as, Decidable (Along step C s as)
  | _, [] => isTrue trivial
  | s, a :: as =>
      have : Decidable (∀ s', step s a = some s' → Along step C s' as) :=
        match step s a with
        | none => isTrue (by simp)
        | some s' =>
            have := Along.decidable (C := C) s' as
            decidable_of_iff (Along step C s' as) (by simp)
      inferInstanceAs (Decidable (_ ∧ _))

@[simp] theorem exec_nil (s : σ) : exec step s [] = some s := rfl

/-- The first step of a run taken apart from those after it. -/
theorem exec_cons {s : σ} {a : α} {as : List α} {t : σ} :
    exec step s (a :: as) = some t ↔ ∃ s', step s a = some s' ∧ exec step s' as = some t := by
  simp [exec, Option.bind_eq_some_iff]

/-- A run of one step. -/
theorem exec_singleton {s t : σ} {a : α} : exec step s [a] = some t ↔ step s a = some t := by
  simp [exec]

/-- A run in two parts. -/
theorem exec_append {s t : σ} {as bs : List α} :
    exec step s (as ++ bs) = some t ↔
      ∃ s', exec step s as = some s' ∧ exec step s' bs = some t := by
  induction as generalizing s with
  | nil => simp
  | cons a as ih =>
      rw [List.cons_append, exec_cons]
      constructor
      · rintro ⟨s', hs', h⟩
        obtain ⟨u, hu, ht⟩ := ih.1 h
        exact ⟨u, exec_cons.2 ⟨s', hs', hu⟩, ht⟩
      · rintro ⟨u, hu, ht⟩
        obtain ⟨s', hs', h⟩ := exec_cons.1 hu
        exact ⟨s', hs', ih.2 ⟨u, h, ht⟩⟩

/-- The last step of a run taken apart from the steps before it. -/
theorem exec_concat {s t : σ} {as : List α} {a : α} :
    exec step s (as ++ [a]) = some t ↔
      ∃ s', exec step s as = some s' ∧ step s' a = some t := by
  rw [exec_append]
  exact exists_congr fun s' => and_congr_right fun _ => by simp [exec_cons]

variable {I : σ → Prop} {C D : σ → α → Prop}

/-- **An invariant of the step is an invariant of the run.**  Only the steps
that meet `C` have to preserve it. -/
theorem exec_invariant (hstep : ∀ s a s', I s → C s a → step s a = some s' → I s')
    {s t : σ} {as : List α} (hs : I s) (hC : Along step C s as)
    (h : exec step s as = some t) : I t := by
  induction as generalizing s with
  | nil => exact Option.some.inj h ▸ hs
  | cons a as ih =>
      obtain ⟨s', hs', h'⟩ := exec_cons.1 h
      exact ih (hstep s a s' hs hC.1 hs') (hC.2 s' hs') h'

/-- Nothing is asked of the steps. -/
theorem along_true (s : σ) (as : List α) : Along step (fun _ _ => True) s as := by
  induction as generalizing s with
  | nil => trivial
  | cons a as ih => exact ⟨trivial, fun s' _ => ih s'⟩

/-- A condition on the labels alone. -/
theorem along_of_forall_mem {P : α → Prop} {as : List α} (h : ∀ a ∈ as, P a) (s : σ) :
    Along step (fun _ a => P a) s as := by
  induction as generalizing s with
  | nil => trivial
  | cons a as ih =>
      exact ⟨h a List.mem_cons_self,
        fun s' _ => ih (fun b hb => h b (List.mem_cons_of_mem a hb)) s'⟩

/-- A step of the run that does not meet `C`, and the state it is taken from. -/
theorem exists_of_not_along {s : σ} {as : List α} (h : ¬Along step C s as) :
    ∃ bs a cs t, as = bs ++ a :: cs ∧ exec step s bs = some t ∧ ¬C t a := by
  induction as generalizing s with
  | nil => exact absurd trivial h
  | cons a as ih =>
      by_cases ha : C s a
      · obtain ⟨s', hs', h'⟩ : ∃ s', step s a = some s' ∧ ¬Along step C s' as := by
          by_contra hno
          exact h ⟨ha, fun s' hs' => by_contra fun h' => hno ⟨s', hs', h'⟩⟩
        obtain ⟨bs, b, cs, t, rfl, ht, hb⟩ := ih h'
        exact ⟨a :: bs, b, cs, t, rfl, exec_cons.2 ⟨s', hs', ht⟩, hb⟩
      · exact ⟨[], a, as, s, rfl, rfl, ha⟩

/-- The unconditional form of `exec_invariant`. -/
theorem exec_invariant' (hstep : ∀ s a s', I s → step s a = some s' → I s')
    {s t : σ} {as : List α} (hs : I s) (h : exec step s as = some t) : I t :=
  exec_invariant (C := fun _ _ => True) (fun s a s' hI _ => hstep s a s' hI) hs
    (along_true s as) h

/-- **What an invariant and a condition on the steps imply holds along the run.** -/
theorem Along.of_invariant (hstep : ∀ s a s', I s → C s a → step s a = some s' → I s')
    (hCD : ∀ s a, I s → C s a → D s a) {s : σ} {as : List α} (h : Along step C s as)
    (hs : I s) : Along step D s as := by
  induction as generalizing s with
  | nil => trivial
  | cons a as ih =>
      obtain ⟨hC, h⟩ := h
      exact ⟨hCD s a hs hC, fun s' hs' => ih (h s' hs') (hstep s a s' hs hC hs')⟩

/-- Two conditions together. -/
theorem along_and {s : σ} {as : List α} :
    Along step (fun s a => C s a ∧ D s a) s as ↔ Along step C s as ∧ Along step D s as := by
  induction as generalizing s with
  | nil => simp [Along]
  | cons a as ih =>
      constructor
      · rintro ⟨⟨hC, hD⟩, h⟩
        exact ⟨⟨hC, fun s' hs' => (ih.1 (h s' hs')).1⟩, hD, fun s' hs' => (ih.1 (h s' hs')).2⟩
      · rintro ⟨⟨hC, h⟩, hD, h'⟩
        exact ⟨⟨hC, hD⟩, fun s' hs' => ih.2 ⟨h s' hs', h' s' hs'⟩⟩

/-- **Conditions that agree under an invariant agree along a run.** -/
theorem along_iff_along (hstep : ∀ s a s', I s → C s a → step s a = some s' → I s')
    (hCD : ∀ s a, I s → (C s a ↔ D s a)) {s : σ} (hs : I s) (as : List α) :
    Along step C s as ↔ Along step D s as := by
  induction as generalizing s with
  | nil => exact Iff.rfl
  | cons a as ih =>
      constructor
      · rintro ⟨hC, h⟩
        exact ⟨(hCD s a hs).1 hC, fun s' hs' => (ih (hstep s a s' hs hC hs')).1 (h s' hs')⟩
      · rintro ⟨hD, h⟩
        have hC := (hCD s a hs).2 hD
        exact ⟨hC, fun s' hs' => (ih (hstep s a s' hs hC hs')).2 (h s' hs')⟩

/-- **A criterion for one step is a criterion for the run.**  Under `P` and the
precondition `Pre` a step succeeds and keeps `P` exactly when it meets `C`; then
the run is safe exactly when each of its steps meets `C`. -/
theorem safe_iff_along {P : σ → Prop} {Pre : σ → α → Prop}
    (hstep : ∀ s a, P s → Pre s a → ((∃ s', step s a = some s' ∧ P s') ↔ C s a)) {s : σ}
    (hs : P s) {as : List α} (hpre : Along step Pre s as) :
    Safe step P s as ↔ Along step C s as := by
  induction as generalizing s with
  | nil => exact ⟨fun _ => trivial, fun _ => hs⟩
  | cons a as ih =>
      constructor
      · rintro ⟨-, s', hs', h⟩
        have hP : P s' := by cases as with
          | nil => exact h
          | cons b bs => exact h.1
        refine ⟨(hstep s a hs hpre.1).1 ⟨s', hs', hP⟩, fun u hu => ?_⟩
        obtain rfl := Option.some.inj (hs'.symm.trans hu)
        exact (ih hP (hpre.2 _ hu)).1 h
      · rintro ⟨hC, h⟩
        obtain ⟨s', hs', hP⟩ := (hstep s a hs hpre.1).2 hC
        exact ⟨hs, s', hs', (ih hP (hpre.2 _ hs')).2 (h s' hs')⟩

/-- The criterion where `P` follows from an invariant that only the steps that meet `C`
keep. -/
theorem safe_iff_along_of_invariant {P : σ → Prop} {B : σ → α → Prop} (hP : ∀ s, I s → P s)
    (hstep : ∀ s a, I s → B s a → ((∃ s', step s a = some s' ∧ P s') ↔ C s a))
    (hI : ∀ s a s', I s → B s a → C s a → step s a = some s' → I s') {s : σ} (hs : I s)
    {as : List α} (hB : Along step B s as) : Safe step P s as ↔ Along step C s as := by
  induction as generalizing s with
  | nil => exact iff_of_true (hP s hs) trivial
  | cons a as ih =>
      have hone := hstep s a hs hB.1
      constructor
      · rintro ⟨-, s', hs', h⟩
        have hPs' : P s' := by cases as with
          | nil => exact h
          | cons b bs => exact h.1
        have hC := hone.1 ⟨s', hs', hPs'⟩
        refine ⟨hC, fun u hu => ?_⟩
        obtain rfl := Option.some.inj (hs'.symm.trans hu)
        exact (ih (hI s a _ hs hB.1 hC hu) (hB.2 _ hu)).1 h
      · rintro ⟨hC, h⟩
        obtain ⟨s', hs', -⟩ := hone.2 hC
        exact ⟨hP s hs, s', hs',
          (ih (hI s a s' hs hB.1 hC hs') (hB.2 s' hs')).2 (h s' hs')⟩

/-- The steps of a run that goes through can be taken. -/
theorem along_of_exec {s t : σ} {as : List α} (h : exec step s as = some t) :
    Along step (fun s a => ∃ s', step s a = some s') s as := by
  induction as generalizing s with
  | nil => trivial
  | cons a as ih =>
      obtain ⟨s', hs', h⟩ := exec_cons.1 h
      refine ⟨⟨s', hs'⟩, fun u hu => ?_⟩
      obtain rfl := Option.some.inj (hs'.symm.trans hu)
      exact ih h

/-- The criterion along a run that goes through. -/
theorem safe_iff_along_of_exec {P : σ → Prop}
    (hI : ∀ s a s', I s → step s a = some s' → I s')
    (hstep : ∀ s a s', I s → P s → step s a = some s' → (P s' ↔ C s a)) {s t : σ}
    {as : List α} (hs : I s) (hP : P s) (h : exec step s as = some t) :
    Safe step P s as ↔ Along step C s as := by
  refine safe_iff_along_of_invariant (I := fun s => I s ∧ P s) (fun _ h => h.2) ?_ ?_ ⟨hs, hP⟩
    (along_of_exec h)
  · rintro s a ⟨hs, hP⟩ ⟨s', hs'⟩
    rw [← hstep s a s' hs hP hs']
    refine ⟨?_, fun hP' => ⟨s', hs', hP'⟩⟩
    rintro ⟨u, hu, hPu⟩
    obtain rfl := Option.some.inj (hs'.symm.trans hu)
    exact hPu
  · rintro s a s' ⟨hs, hP⟩ - hC hs'
    exact ⟨hI s a s' hs hs', (hstep s a s' hs hP hs').2 hC⟩

/-- **A criterion on the trace.**  Where an invariant `I` ties the state to the labels
that have led to it, and a step succeeds and keeps `P` exactly when `D` holds of its
label after these, then a run is safe exactly when `D` holds at each of its labels. -/
theorem safe_iff_forall_split {P : σ → Prop} {Pre : σ → α → Prop} {J : List α → σ → Prop}
    {E : List α → α → Prop} (hP : ∀ bs s, J bs s → P s)
    (hstep : ∀ bs s a, J bs s → Pre s a → ((∃ s', step s a = some s' ∧ P s') ↔ E bs a))
    (hJ : ∀ bs s a s', J bs s → Pre s a → step s a = some s' → P s' → J (bs ++ [a]) s') {s : σ}
    {bs as : List α} (hs : J bs s) (hpre : Along step Pre s as) :
    Safe step P s as ↔ ∀ cs a ds, as = cs ++ a :: ds → E (bs ++ cs) a := by
  induction as generalizing s bs with
  | nil => exact iff_of_true (hP bs s hs) fun cs a ds h => by cases cs <;> cases h
  | cons a as ih =>
      have hone := hstep bs s a hs hpre.1
      constructor
      · rintro ⟨-, s', hs', h⟩ cs b ds hsplit
        have hPs' : P s' := by cases as with
          | nil => exact h
          | cons b bs => exact h.1
        cases cs with
        | nil =>
            obtain ⟨rfl, rfl⟩ := List.cons.inj hsplit
            rw [List.append_nil]
            exact hone.1 ⟨s', hs', hPs'⟩
        | cons c cs =>
            obtain ⟨rfl, rfl⟩ := List.cons.inj hsplit
            have hrest := (ih (hJ bs s a s' hs hpre.1 hs' hPs') (hpre.2 s' hs')).1 h cs b ds rfl
            rwa [List.append_assoc] at hrest
      · intro hE
        have hEa := hE [] a as rfl
        rw [List.append_nil] at hEa
        obtain ⟨s', hs', hPs'⟩ := hone.2 hEa
        refine ⟨hP bs s hs, s', hs',
          (ih (hJ bs s a s' hs hpre.1 hs' hPs') (hpre.2 s' hs')).2 fun cs b ds hsplit => ?_⟩
        have hrest := hE (a :: cs) b ds (by rw [hsplit, List.cons_append])
        rwa [List.append_assoc]

/-- Such a run goes through, and what ties the state to the labels holds at its end. -/
theorem exists_exec_of_forall_split {P : σ → Prop} {Pre : σ → α → Prop}
    {J : List α → σ → Prop} {E : List α → α → Prop}
    (hstep : ∀ bs s a, J bs s → Pre s a → ((∃ s', step s a = some s' ∧ P s') ↔ E bs a))
    (hJ : ∀ bs s a s', J bs s → Pre s a → step s a = some s' → P s' → J (bs ++ [a]) s') {s : σ}
    {bs as : List α} (hs : J bs s) (hpre : Along step Pre s as)
    (hE : ∀ cs a ds, as = cs ++ a :: ds → E (bs ++ cs) a) :
    ∃ t, exec step s as = some t ∧ J (bs ++ as) t := by
  induction as generalizing s bs with
  | nil => exact ⟨s, rfl, by rwa [List.append_nil]⟩
  | cons a as ih =>
      have hEa := hE [] a as rfl
      rw [List.append_nil] at hEa
      obtain ⟨s', hs', hPs'⟩ := (hstep bs s a hs hpre.1).2 hEa
      obtain ⟨t, ht, hJt⟩ := ih (hJ bs s a s' hs hpre.1 hs' hPs') (hpre.2 s' hs')
        fun cs b ds hsplit => by
          have hrest := hE (a :: cs) b ds (by rw [hsplit, List.cons_append])
          rwa [List.append_assoc]
      rw [List.append_assoc] at hJt
      exact ⟨t, exec_cons.2 ⟨s', hs', ht⟩, hJt⟩

/-- **What one step adds, a run adds.**  If a step keeps `P` exactly when it
meets `C`, then a run keeps `P` exactly when each of its steps meets `C`. -/
theorem exec_iff_along {P : σ → Prop}
    (hstep : ∀ s a s', I s → step s a = some s' → I s' ∧ (P s' ↔ P s ∧ C s a)) {s t : σ}
    {as : List α} (hs : I s) (h : exec step s as = some t) : P t ↔ P s ∧ Along step C s as := by
  induction as generalizing s with
  | nil =>
      obtain rfl := Option.some.inj h
      exact (and_iff_left trivial).symm
  | cons a as ih =>
      obtain ⟨s', hs', h'⟩ := exec_cons.1 h
      obtain ⟨hI, hP⟩ := hstep s a s' hs hs'
      rw [ih hI h', hP, and_assoc]
      refine and_congr_right fun _ => and_congr_right fun _ =>
        ⟨fun hal u hu => ?_, fun hal => hal s' hs'⟩
      obtain rfl := Option.some.inj (hs'.symm.trans hu)
      exact hal

/-! ### What a run gives -/

/-- **What each step adds to a record, a run adds.**  Where a step appends `f s a` to
`g s`, a run appends what its steps give. -/
theorem exec_collect {g : σ → List β} {f : σ → α → List β}
    (hstep : ∀ s a s', step s a = some s' → g s' = g s ++ f s a) {s t : σ} {as : List α}
    (h : exec step s as = some t) : g t = g s ++ collect step f s as := by
  induction as generalizing s with
  | nil =>
      obtain rfl := Option.some.inj h
      exact (List.append_nil _).symm
  | cons a as ih =>
      obtain ⟨s', hs', h'⟩ := exec_cons.1 h
      rw [ih h', hstep s a s' hs', collect, hs', Option.elim_some, List.append_assoc]

/-- Where only the labels count, they are gone through as they stand. -/
theorem collect_label {f : α → List β} {s t : σ} {as : List α}
    (h : exec step s as = some t) : collect step (fun _ a => f a) s as = as.flatMap f := by
  induction as generalizing s with
  | nil => rfl
  | cons a as ih =>
      obtain ⟨s', hs', h'⟩ := exec_cons.1 h
      rw [collect, hs', Option.elim_some, ih h', List.flatMap_cons]

/-! ### Work that runs out -/

/-- **The steps that count take one off each**, and the others nothing. -/
theorem countP_add_of_exec (left : σ → ℕ) {p : α → Bool}
    (hstep : ∀ s a s', I s → C s a → step s a = some s' →
      I s' ∧ left s = left s' + if p a = true then 1 else 0) {s t : σ} {as : List α} (hs : I s)
    (hC : Along step C s as) (h : exec step s as = some t) : as.countP p + left t = left s := by
  induction as generalizing s with
  | nil =>
      obtain rfl := Option.some.inj h
      exact Nat.zero_add _
  | cons a as ih =>
      obtain ⟨s', hs', h'⟩ := exec_cons.1 h
      obtain ⟨hI, hleft⟩ := hstep s a s' hs hC.1 hs'
      rw [List.countP_cons, hleft, ← ih hI (hC.2 s' hs') h']
      omega

/-- **Each step takes one off what is left to do.** -/
theorem length_add_of_exec {left : σ → ℕ}
    (hstep : ∀ s a s', I s → step s a = some s' → I s' ∧ left s = left s' + 1) {s t : σ}
    {as : List α} (hs : I s) (h : exec step s as = some t) : as.length + left t = left s := by
  rw [← List.countP_true]
  exact countP_add_of_exec (C := fun _ _ => True) (p := fun _ => true) left
    (fun s a s' hI _ h => hstep s a s' hI h) hs (along_true s as) h

/-- **Where something is left a step can be taken**, so a run leads to nothing left. -/
theorem exists_exec_left_eq_zero {left : σ → ℕ}
    (hstep : ∀ s a s', I s → step s a = some s' → I s' ∧ left s = left s' + 1)
    (hgo : ∀ s, I s → left s ≠ 0 → ∃ a s', step s a = some s') {s : σ} (hs : I s) :
    ∃ as t, exec step s as = some t ∧ left t = 0 := by
  induction hn : left s generalizing s with
  | zero => exact ⟨[], s, rfl, hn⟩
  | succ n ih =>
      obtain ⟨a, s', hs'⟩ := hgo s hs (by omega)
      obtain ⟨hI, hleft⟩ := hstep s a s' hs hs'
      obtain ⟨as, t, ht, hzero⟩ := ih hI (by omega)
      exact ⟨a :: as, t, exec_cons.2 ⟨s', hs', ht⟩, hzero⟩

end Exec

/-- **Runs project.**  If each step of the large machine leaves the component
`f s` alone or moves it by a step of the small machine, then so does each run. -/
theorem exec_project {step : σ → α → Option σ} {small : τ → β → Option τ} (f : σ → τ)
    (hstep : ∀ s a s', step s a = some s' → f s' = f s ∨ ∃ b, small (f s) b = some (f s'))
    {s t : σ} {as : List α} (h : exec step s as = some t) :
    ∃ bs, exec small (f s) bs = some (f t) := by
  induction as generalizing s with
  | nil => exact ⟨[], congrArg some (congrArg f (Option.some.inj h))⟩
  | cons a as ih =>
      obtain ⟨s', hs', h'⟩ := exec_cons.1 h
      obtain ⟨bs, hbs⟩ := ih h'
      rcases hstep s a s' hs' with he | ⟨b, hb⟩
      · exact ⟨bs, he ▸ hbs⟩
      · exact ⟨b :: bs, exec_cons.2 ⟨f s', hb, hbs⟩⟩

/-- **Runs project, label by label.**  If each step of the large machine is the step of
the small one under the same label, then so is each run. -/
theorem exec_project_label {step : σ → α → Option σ} {small : τ → α → Option τ} (f : σ → τ)
    (hstep : ∀ s a s', step s a = some s' → small (f s) a = some (f s')) {s t : σ}
    {as : List α} (h : exec step s as = some t) : exec small (f s) as = some (f t) := by
  induction as generalizing s with
  | nil => exact congrArg some (congrArg f (Option.some.inj h))
  | cons a as ih =>
      obtain ⟨s', hs', h'⟩ := exec_cons.1 h
      exact exec_cons.2 ⟨f s', hstep s a s' hs', ih h'⟩

/-- **Runs project, a run for each step.** -/
theorem exec_project_run {step : σ → α → Option σ} {small : τ → β → Option τ} (f : σ → τ)
    (hstep : ∀ s a s', step s a = some s' → ∃ bs, exec small (f s) bs = some (f s'))
    {s t : σ} {as : List α} (h : exec step s as = some t) :
    ∃ bs, exec small (f s) bs = some (f t) := by
  induction as generalizing s with
  | nil => exact ⟨[], congrArg some (congrArg f (Option.some.inj h))⟩
  | cons a as ih =>
      obtain ⟨s', hs', h'⟩ := exec_cons.1 h
      obtain ⟨bs, hbs⟩ := hstep s a s' hs'
      obtain ⟨cs, hcs⟩ := ih h'
      exact ⟨bs ++ cs, exec_append.2 ⟨f s', hbs, hcs⟩⟩

end Foundation
end MuMuduo
