import Mathlib.Algebra.Order.Ring.Rat
import Mathlib.Data.List.Chain
import Mathlib.Tactic.Linarith
import Mathlib.Tactic.Ring

/-! Metered admission in exact time: attempts that spend from a level, which grows at a
bounded rate up to a bounded burst, are admitted at that rate over every window. -/
namespace Admission

/-- One attempt: when it was made, whether it was admitted, and the level it left. -/
structure Attempt where
  time : ℚ
  admitted : Bool
  left : ℚ

/-- An admitted attempt costs one. -/
def Attempt.cost (attempt : Attempt) : ℚ := if attempt.admitted then 1 else 0

/-- The level that an attempt met. -/
def Attempt.level (attempt : Attempt) : ℚ := attempt.left + attempt.cost

/-- Between two attempts the level grows no faster than the rate. -/
def Refills (rate : ℚ) (later earlier : Attempt) : Prop :=
  earlier.time ≤ later.time ∧ later.level ≤ earlier.left + rate * (later.time - earlier.time)

/-- Attempts, the most recent first, that spend from one metered level. -/
structure Metered (rate burst : ℚ) (attempts : List Attempt) : Prop where
  refills : attempts.IsChain (Refills rate)
  level_le : ∀ attempt ∈ attempts, attempt.level ≤ burst
  left_nonneg : ∀ attempt ∈ attempts, 0 ≤ attempt.left

/-- The attempts admitted at or after a time. -/
def admittedSince (start : ℚ) (attempts : List Attempt) : List Attempt :=
  attempts.filter fun attempt => attempt.admitted && decide (start ≤ attempt.time)

/-- The attempts admitted in a window. -/
def admittedWithin (start stop : ℚ) (attempts : List Attempt) : List Attempt :=
  (admittedSince start attempts).filter fun attempt => decide (attempt.time ≤ stop)

variable {rate burst : ℚ} {attempts : List Attempt}

theorem Metered.nil (rate burst : ℚ) : Metered rate burst [] where
  refills := List.IsChain.nil
  level_le := by simp
  left_nonneg := by simp

theorem Metered.tail {attempt : Attempt} (h : Metered rate burst (attempt :: attempts)) :
    Metered rate burst attempts where
  refills := h.refills.tail
  level_le := fun other hOther => h.level_le other (List.mem_cons_of_mem _ hOther)
  left_nonneg := fun other hOther => h.left_nonneg other (List.mem_cons_of_mem _ hOther)

theorem Metered.cons {attempt : Attempt} (h : Metered rate burst attempts)
    (hRefills : ∀ last ∈ attempts.head?, Refills rate attempt last)
    (hLevel : attempt.level ≤ burst) (hLeft : 0 ≤ attempt.left) :
    Metered rate burst (attempt :: attempts) where
  refills := List.isChain_cons.mpr ⟨hRefills, h.refills⟩
  level_le := by
    intro other hOther
    rcases List.mem_cons.mp hOther with rfl | hOther
    · exact hLevel
    · exact h.level_le other hOther
  left_nonneg := by
    intro other hOther
    rcases List.mem_cons.mp hOther with rfl | hOther
    · exact hLeft
    · exact h.left_nonneg other hOther

/-- No attempt was made after the most recent one. -/
theorem Metered.time_le {attempt : Attempt} (h : Metered rate burst (attempt :: attempts)) :
    ∀ other ∈ attempts, other.time ≤ attempt.time := by
  induction attempts generalizing attempt with
  | nil => simp
  | cons last earlier ih =>
      have hLast : last.time ≤ attempt.time :=
        ((List.isChain_cons.mp h.refills).1 last rfl).1
      intro other hOther
      rcases List.mem_cons.mp hOther with rfl | hOther
      · exact hLast
      · exact (ih h.tail other hOther).trans hLast

theorem Metered.since_eq_nil {start : ℚ} {attempt : Attempt}
    (h : Metered rate burst (attempt :: attempts)) (hStart : attempt.time < start) :
    admittedSince start (attempt :: attempts) = [] := by
  refine List.filter_eq_nil_iff.mpr fun other hOther => ?_
  have hTime : other.time < start := by
    rcases List.mem_cons.mp hOther with rfl | hOther
    · exact hStart
    · exact (h.time_le other hOther).trans_lt hStart
  simp [not_le.mpr hTime]

theorem since_cons {start : ℚ} {attempt : Attempt} (hStart : start ≤ attempt.time) :
    ((admittedSince start (attempt :: attempts)).length : ℚ) + attempt.left =
      (admittedSince start attempts).length + attempt.level := by
  cases hAdmitted : attempt.admitted with
  | false => simp [admittedSince, Attempt.level, Attempt.cost, hAdmitted]
  | true =>
      simp only [admittedSince, Attempt.level, Attempt.cost, hAdmitted, hStart, Bool.true_and,
        decide_true, List.filter_cons_of_pos, List.length_cons, ↓reduceIte]
      push_cast
      ring

/-- What was admitted since a time, together with the level that the last attempt left,
came out of one full burst and the refill since that time. -/
theorem Metered.since_add_left {start : ℚ} {attempt : Attempt}
    (h : Metered rate burst (attempt :: attempts)) (hRate : 0 ≤ rate)
    (hStart : start ≤ attempt.time) :
    ((admittedSince start (attempt :: attempts)).length : ℚ) + attempt.left ≤
      burst + rate * (attempt.time - start) := by
  induction attempts generalizing attempt with
  | nil =>
      rw [since_cons hStart]
      have hLevel := h.level_le attempt (List.mem_cons_self ..)
      have hGrowth := mul_nonneg hRate (sub_nonneg.mpr hStart)
      simp only [admittedSince, List.filter_nil, List.length_nil, Nat.cast_zero]
      linarith
  | cons last earlier ih =>
      rw [since_cons hStart]
      by_cases hLast : start ≤ last.time
      · have hEarlier := ih h.tail hLast
        obtain ⟨_, hGrowth⟩ := (List.isChain_cons.mp h.refills).1 last rfl
        calc
          _ ≤ ((admittedSince start (last :: earlier)).length : ℚ) +
              (last.left + rate * (attempt.time - last.time)) := by linarith
          _ ≤ burst + rate * (last.time - start) + rate * (attempt.time - last.time) := by linarith
          _ = burst + rate * (attempt.time - start) := by ring
      · -- The window begins after the last attempt, so only a full burst can be left of it.
        have hLevel := h.level_le attempt (List.mem_cons_self ..)
        have hGrowth := mul_nonneg hRate (sub_nonneg.mpr hStart)
        rw [h.tail.since_eq_nil (not_le.mp hLast), List.length_nil, Nat.cast_zero]
        linarith

/-- Over every window the admissions stay within one burst and the window's refill. -/
theorem Metered.within_le {start stop : ℚ} (h : Metered rate burst attempts) (hRate : 0 ≤ rate)
    (hBurst : 0 ≤ burst) (hWindow : start ≤ stop) :
    ((admittedWithin start stop attempts).length : ℚ) ≤ burst + rate * (stop - start) := by
  have hEmpty : (0 : ℚ) ≤ burst + rate * (stop - start) :=
    add_nonneg hBurst (mul_nonneg hRate (sub_nonneg.mpr hWindow))
  induction attempts with
  | nil => simpa [admittedWithin, admittedSince] using hEmpty
  | cons attempt earlier ih =>
      by_cases hStop : attempt.time ≤ stop
      · have hCount : ((admittedWithin start stop (attempt :: earlier)).length : ℚ) ≤
            (admittedSince start (attempt :: earlier)).length := by
          exact_mod_cast List.length_filter_le _ _
        by_cases hStart : start ≤ attempt.time
        · have hSince := h.since_add_left hRate hStart
          have hLeft := h.left_nonneg attempt (List.mem_cons_self ..)
          have hGrowth := mul_le_mul_of_nonneg_left (sub_le_sub_right hStop start) hRate
          linarith
        · rw [h.since_eq_nil (not_le.mp hStart)] at hCount
          simp only [List.length_nil, Nat.cast_zero] at hCount
          linarith
      · -- Later than the window: the attempts before it decide.
        have hDrop : admittedWithin start stop (attempt :: earlier) =
            admittedWithin start stop earlier := by
          cases hAdmitted : attempt.admitted <;> by_cases hStart : start ≤ attempt.time <;>
            simp [admittedWithin, admittedSince, hAdmitted, hStart, hStop]
        rw [hDrop]
        exact ih h.tail

end Admission
