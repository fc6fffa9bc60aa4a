import Mathlib.Data.List.Forall2

/-!
# Results

When a result that is made from others is a success, and of what, or a failure, and
why.  Where several things can be wrong, the first one is the cause.
-/

namespace MetricRates

variable {ε α β : Type}

theorem toOption_eq_some_iff {result : Except ε α} {value : α} :
    result.toOption = some value ↔ result = .ok value := by
  cases result <;> simp [Except.toOption]

theorem map_eq_error_iff {result : Except ε α} {f : α → β} {cause : ε} :
    result.map f = .error cause ↔ result = .error cause := by
  cases result <;> simp [Except.map]

theorem map_eq_ok_iff {result : Except ε α} {f : α → β} {b : β} :
    result.map f = .ok b ↔ ∃ a, result = .ok a ∧ f a = b := by
  cases result <;> simp [Except.map]

theorem bind_eq_ok_iff {first : Except ε α} {next : α → Except ε β} {b : β} :
    first >>= next = .ok b ↔ ∃ a, first = .ok a ∧ next a = .ok b := by
  cases first <;> simp [bind, Except.bind]

/-- A step taken on each element succeeds exactly when it succeeds on every one. -/
theorem mapM_eq_ok_iff {f : α → Except ε β} {list : List α} {results : List β} :
    list.mapM f = .ok results ↔ List.Forall₂ (fun a b => f a = .ok b) list results := by
  induction list generalizing results with
  | nil => simp [pure, Except.pure, eq_comm]
  | cons a list ih =>
      simp only [List.mapM_cons, bind_eq_ok_iff, ih, List.forall₂_cons_left_iff, pure, Except.pure,
        Except.ok.injEq]
      constructor
      · rintro ⟨b, one, rest, others, rfl⟩
        exact ⟨b, rest, one, others, rfl⟩
      · rintro ⟨b, rest, one, others, rfl⟩
        exact ⟨b, one, rest, others, rfl⟩

/-- What is related to a list element by element comes from one of its elements. -/
theorem exists_left_of_forall₂ {R : α → β → Prop} {list : List α} {others : List β}
    (related : List.Forall₂ R list others) {b : β} (listed : b ∈ others) : ∃ a ∈ list, R a b := by
  induction related with
  | nil => exact absurd listed List.not_mem_nil
  | cons first rest ih =>
      rcases List.mem_cons.mp listed with rfl | later
      · exact ⟨_, List.mem_cons_self, first⟩
      · obtain ⟨a, member, found⟩ := ih later
        exact ⟨a, List.mem_cons_of_mem _ member, found⟩

theorem bind_eq_error_iff {first : Except ε α} {next : α → Except ε β} {cause : ε} :
    first >>= next = .error cause ↔
      first = .error cause ∨ ∃ a, first = .ok a ∧ next a = .error cause := by
  cases first <;> simp [bind, Except.bind]

theorem forall_ne_error_iff {result : Except ε α} :
    (∀ cause, ¬result = .error cause) ↔ ∃ value, result = .ok value := by
  cases result <;> simp

/-! ## First faults -/

/-- The cause is that of the first fault that there is.  A fault is given by the
causes that it has, so there is none where it has no cause. -/
def FirstFault : List (ε → Prop) → ε → Prop
  | [], _ => False
  | fault :: rest, cause => fault cause ∨ (∀ other, ¬fault other) ∧ FirstFault rest cause

/-- There is a first fault exactly when there is any. -/
theorem exists_firstFault_iff {faults : List (ε → Prop)} :
    (∃ cause, FirstFault faults cause) ↔ ∃ fault ∈ faults, ∃ cause, fault cause := by
  induction faults with
  | nil => simp [FirstFault]
  | cons fault rest ih =>
      rw [List.exists_mem_cons_iff, ← ih]
      constructor
      · rintro ⟨cause, here | ⟨-, later⟩⟩
        · exact .inl ⟨cause, here⟩
        · exact .inr ⟨cause, later⟩
      · rintro (⟨cause, here⟩ | ⟨cause, later⟩)
        · exact ⟨cause, .inl here⟩
        · by_cases here : ∃ other, fault other
          · exact here.imp fun other => .inl
          · exact ⟨cause, .inr ⟨not_exists.mp here, later⟩⟩

theorem firstFault_append {first second : List (ε → Prop)} {cause : ε} :
    FirstFault (first ++ second) cause ↔
      FirstFault first cause ∨ (∀ other, ¬FirstFault first other) ∧ FirstFault second cause := by
  induction first with
  | nil => simp [FirstFault]
  | cons fault rest ih =>
      have none : (∀ other, ¬FirstFault (fault :: rest) other) ↔
          (∀ other, ¬fault other) ∧ ∀ other, ¬FirstFault rest other := by
        rw [← not_exists, exists_firstFault_iff, List.exists_mem_cons_iff, ← exists_firstFault_iff,
          not_or, not_exists, not_exists]
      rw [none, List.cons_append, FirstFault, ih, FirstFault]
      tauto

theorem firstFault_map_congr {faults others : α → ε → Prop} {list : List α}
    (same : ∀ a ∈ list, ∀ cause, faults a cause ↔ others a cause) (cause : ε) :
    FirstFault (list.map faults) cause ↔ FirstFault (list.map others) cause := by
  rw [List.map_congr_left fun a listed => funext fun cause => propext (same a listed cause)]

/-- What follows a step can go wrong only where the step does not. -/
theorem bind_eq_error_iff_firstFault {first : Except ε α} {next : α → Except ε β}
    (faults rest : List (ε → Prop)) (step : ∀ cause, first = .error cause ↔ FirstFault faults cause)
    (after : ∀ a, first = .ok a → ∀ cause, next a = .error cause ↔ FirstFault rest cause)
    (cause : ε) : first >>= next = .error cause ↔ FirstFault (faults ++ rest) cause := by
  rw [bind_eq_error_iff, firstFault_append, step]
  simp only [← step, forall_ne_error_iff]
  constructor
  · rintro (here | ⟨a, passed, later⟩)
    · exact .inl here
    · exact .inr ⟨⟨a, passed⟩, (after a passed cause).mp later⟩
  · rintro (here | ⟨⟨a, passed⟩, later⟩)
    · exact .inl here
    · exact .inr ⟨a, passed, (after a passed cause).mpr later⟩

/-- A step taken on each element fails as it does on the first one that it fails on. -/
theorem mapM_eq_error_iff {f : α → Except ε β} {list : List α} (cause : ε) :
    list.mapM f = .error cause ↔ FirstFault (list.map fun a cause => f a = .error cause) cause := by
  induction list generalizing cause with
  | nil => simp [FirstFault, pure, Except.pure]
  | cons a list ih =>
      rw [List.mapM_cons, bind_eq_error_iff, List.map_cons, FirstFault, forall_ne_error_iff, ← ih]
      refine or_congr_right ⟨?_, ?_⟩
      · rintro ⟨b, passed, later⟩
        rcases bind_eq_error_iff.mp later with later | ⟨rest, -, impossible⟩
        · exact ⟨⟨b, passed⟩, later⟩
        · cases impossible
      · rintro ⟨⟨b, passed⟩, later⟩
        exact ⟨b, passed, bind_eq_error_iff.mpr (.inl later)⟩

/-- Dropping what has no fault changes nothing. -/
theorem firstFault_filter {fault : α → ε → Prop} {keeps : α → Bool} {list : List α}
    (sound : ∀ a ∈ list, keeps a = false → ∀ cause, ¬fault a cause) (cause : ε) :
    FirstFault ((list.filter keeps).map fault) cause ↔ FirstFault (list.map fault) cause := by
  induction list with
  | nil => rfl
  | cons a list ih =>
      have rest := ih fun b listed => sound b (List.mem_cons_of_mem a listed)
      cases kept : keeps a with
      | true => rw [List.filter_cons_of_pos kept, List.map_cons, List.map_cons, FirstFault,
          FirstFault, rest]
      | false =>
          have none := sound a List.mem_cons_self kept
          rw [List.filter_cons_of_neg (by simp [kept]), rest, List.map_cons, FirstFault]
          simp [none]

/-- Later repeats cannot be the first fault. -/
theorem firstFault_eraseDups [BEq α] [LawfulBEq α] (fault : α → ε → Prop) (cause : ε) :
    (list : List α) →
      (FirstFault (list.eraseDups.map fault) cause ↔ FirstFault (list.map fault) cause)
  | [] => by simp
  | a :: list => by
      have shorter : (list.filter fun other => !other == a).length < (a :: list).length :=
        Nat.lt_succ_of_le (List.length_filter_le _ _)
      rw [List.eraseDups_cons, List.map_cons, List.map_cons, FirstFault, FirstFault,
        firstFault_eraseDups fault cause]
      refine or_congr_right (and_congr_right fun none => firstFault_filter ?_ cause)
      intro other _ same
      have same : other = a := by simpa using same
      exact same ▸ none
termination_by list => list.length
decreasing_by exact shorter

end MetricRates
