import NetIntent.Time.Timestamp

namespace NetIntent.CivilDate

/-!
# Days and dates

Every number of a day names a valid date, and the date has this number.

A day is located in its era of 400 years by centuries, then by leap cycles of four years, then by
years, and last by months. Years begin in March, so that a leap day comes last.

* `toDays_ofDays` — the number of the date of a day is the day;
* `isValid_ofDays` — the date of a day is one of the calendar.
-/

/-- The day of an era in centuries, leap cycles, years and days. Only the last year of a cycle can
    have a day with number 365, and the last cycle of a century only at the end of the era. -/
theorem exists_yearOfEra {d : Nat} (h : d < 146097) :
    ∃ q u v r, q ≤ 3 ∧ u ≤ 24 ∧ v ≤ 3 ∧ r ≤ 365 ∧ (r = 365 → v = 3 ∧ (u < 24 ∨ q = 3)) ∧
      d = 36524 * q + 1461 * u + 365 * v + r := by
  -- Three centuries and 24 cycles are the most that is taken off, however long the last one is.
  have hcentury : d - 36524 * min 3 (d / 36524) ≤ 36524 := by omega
  have hlast : d - 36524 * min 3 (d / 36524) = 36524 → 3 ≤ d / 36524 := by omega
  have hd : d = 36524 * min 3 (d / 36524) + (d - 36524 * min 3 (d / 36524)) := by omega
  generalize hq : min 3 (d / 36524) = q at *
  generalize d - 36524 * q = e at *
  generalize hu : min 24 (e / 1461) = u
  generalize hf : e - 1461 * u = f
  have hcycle : f ≤ 1460 := by omega
  have hleap : f = 1460 → u < 24 ∨ q = 3 := by omega
  generalize hv : min 3 (f / 365) = v
  refine ⟨q, u, v, f - 365 * v, ?_, ?_, ?_, ?_, ?_, ?_⟩ <;> omega

/-- The quotient that estimates a year of an era is the year. -/
theorem yearOfEra_eq {d q u v r : Nat} (hq : q ≤ 3) (hu : u ≤ 24) (hv : v ≤ 3) (hr : r ≤ 365)
    (hleap : r = 365 → v = 3 ∧ (u < 24 ∨ q = 3))
    (hd : d = 36524 * q + 1461 * u + 365 * v + r) :
    (d - d / 1460 + d / 36524 - d / 146096) / 365 = 100 * q + 4 * u + v := by
  -- The quotient by 1460 counts the leap cycles, and perhaps one more towards the end of a cycle.
  have hcycles : d / 1460 = 25 * q + u + (24 * q + u + 365 * v + r) / 1460 := by omega
  have hcenturies : d / 36524 - d / 146096 = q := by omega
  have hera : d / 146096 ≤ d / 36524 := by omega
  generalize hx : (24 * q + u + 365 * v + r) / 1460 = x at *
  have hx1 : x ≤ 1 := by omega
  have hpos : x = 1 → 1 ≤ r := by omega
  have hend : r = 365 → x = 1 := by omega
  omega

/-- What is known of the year of a day of an era: the days before it, the days in it, and that only
    a year that ends in a leap day has one with number 365. -/
theorem yearOfEra_spec {d : Nat} (h : d < 146097) :
    let y := (d - d / 1460 + d / 36524 - d / 146096) / 365
    y ≤ 399 ∧ 365 * y + y / 4 - y / 100 ≤ d ∧ d ≤ 365 * y + y / 4 - y / 100 + 365 ∧
      (d = 365 * y + y / 4 - y / 100 + 365 →
        (y + 1) % 4 = 0 ∧ ((y + 1) % 100 ≠ 0 ∨ (y + 1) % 400 = 0)) := by
  obtain ⟨q, u, v, r, hq, hu, hv, hr, hleap, hd⟩ := exists_yearOfEra h
  rw [yearOfEra_eq hq hu hv hr hleap hd]
  have hcycles : (100 * q + 4 * u + v) / 4 = 25 * q + u := by omega
  have hcenturies : (100 * q + 4 * u + v) / 100 = q := by omega
  simp only [hcycles, hcenturies]
  refine ⟨by omega, by omega, by omega, fun hend => ?_⟩
  obtain ⟨rfl, hcycle⟩ := hleap (by omega)
  omega

/-- The estimate of a month of a year that begins in March. -/
theorem monthOfYear_spec {d : Nat} (h : d ≤ 365) :
    let m := (5 * d + 2) / 153
    m ≤ 11 ∧ (153 * m + 2) / 5 ≤ d ∧ d < (153 * m + 2) / 5 + 31 ∧
      (m = 1 ∨ m = 3 ∨ m = 6 ∨ m = 8 → d < (153 * m + 2) / 5 + 30) ∧
      (m = 11 → (153 * m + 2) / 5 = 337) := by
  have hall : ∀ d : Fin 366,
      let m := (5 * d.val + 2) / 153
      m ≤ 11 ∧ (153 * m + 2) / 5 ≤ d.val ∧ d.val < (153 * m + 2) / 5 + 31 ∧
        (m = 1 ∨ m = 3 ∨ m = 6 ∨ m = 8 → d.val < (153 * m + 2) / 5 + 30) ∧
        (m = 11 → (153 * m + 2) / 5 = 337) := by
    decide +kernel
  exact hall ⟨d, by omega⟩

/-- The rule for leap years is the same in every era of four hundred years. -/
theorem isLeapYear_of_yearOfEra {y : Nat} {era : Int}
    (h : (y + 1) % 4 = 0 ∧ ((y + 1) % 100 ≠ 0 ∨ (y + 1) % 400 = 0)) :
    isLeapYear ((y : Int) + era * 400 + 1) = true := by
  simp only [isLeapYear, Bool.and_eq_true, Bool.or_eq_true, Bool.not_eq_true', decide_eq_true_eq,
    decide_eq_false_iff_not]
  omega

/-- A day as an era and a day of it. -/
theorem exists_era (days : Int) :
    ∃ (era : Int) (d : Nat), d < 146097 ∧ Int.fdiv (days + 719468) 146097 = era ∧
      (days + 719468 - era * 146097).toNat = d ∧ days = era * 146097 + d - 719468 := by
  rw [Int.fdiv_eq_ediv_of_nonneg _ (by decide)]
  exact ⟨_, _, by omega, rfl, rfl, by omega⟩

/-- The date of a day has the number of the day. -/
theorem toDays_ofDays (days : Int) : (ofDays days).toDays = days := by
  obtain ⟨era, d, hd, hera, hday, hdays⟩ := exists_era days
  obtain ⟨hy, hlow, hhigh, -⟩ := yearOfEra_spec hd
  unfold ofDays
  simp only [hera, hday]
  generalize (d - d / 1460 + d / 36524 - d / 146096) / 365 = y at *
  generalize hr : d - (365 * y + y / 4 - y / 100) = r at *
  obtain ⟨hm, hmlow, -, -⟩ := monthOfYear_spec (d := r) (by omega)
  generalize hmr : (5 * r + 2) / 153 = m at *
  -- The month is shifted to the civil year and back.
  have hshift : ((if m < 10 then m + 3 else m - 9) + 9) % 12 = m := by split <;> omega
  have hyear : (if (if m < 10 then m + 3 else m - 9) ≤ 2
        then (if (if m < 10 then m + 3 else m - 9) ≤ 2 then (y : Int) + era * 400 + 1
          else (y : Int) + era * 400) - 1
        else if (if m < 10 then m + 3 else m - 9) ≤ 2 then (y : Int) + era * 400 + 1
          else (y : Int) + era * 400) = (y : Int) + era * 400 := by
    split <;> omega
  have hback : Int.fdiv ((y : Int) + era * 400) 400 = era := by
    rw [Int.fdiv_eq_ediv_of_nonneg _ (by decide)]
    omega
  have hyoe : (y : Int) + era * 400 - era * 400 = y := by omega
  unfold toDays
  simp only [hshift, hyear, hback, hyoe]
  rw [Int.fdiv_eq_ediv_of_nonneg _ (by decide), Int.fdiv_eq_ediv_of_nonneg _ (by decide),
    Int.fdiv_eq_ediv_of_nonneg _ (by decide)]
  have hdoy : (153 * (m : Int) + 2) / 5 + ((r - (153 * m + 2) / 5 + 1 : Nat) : Int) - 1 = r := by
    omega
  rw [hdoy]
  omega

/-- The date of a day is one of the calendar. -/
theorem isValid_ofDays (days : Int) : (ofDays days).isValid = true := by
  obtain ⟨era, d, hd, hera, hday, hdays⟩ := exists_era days
  obtain ⟨hy, hlow, hhigh, hleap⟩ := yearOfEra_spec hd
  unfold ofDays
  simp only [hera, hday]
  generalize (d - d / 1460 + d / 36524 - d / 146096) / 365 = y at *
  generalize hr : d - (365 * y + y / 4 - y / 100) = r at *
  obtain ⟨hm, hmlow, hlong, hshort, hfebruary⟩ := monthOfYear_spec (d := r) (by omega)
  generalize hmr : (5 * r + 2) / 153 = m at *
  have hmonth : ∀ k, (if m < 10 then m + 3 else m - 9) = k →
      1 ≤ k ∧ k ≤ 12 ∧ (k = 2 ↔ m = 11) ∧
        (k = 4 ∨ k = 6 ∨ k = 9 ∨ k = 11 → m = 1 ∨ m = 3 ∨ m = 6 ∨ m = 8) := by
    intro k hk
    split at hk <;> omega
  generalize hk : (if m < 10 then m + 3 else m - 9) = k at *
  obtain ⟨hk1, hk12, hfeb, hthirty⟩ := hmonth k rfl
  simp only [isValid, decide_eq_true_eq, monthLength]
  refine ⟨hk1, hk12, by omega, ?_⟩
  by_cases hlast : m = 11
  · -- the last month of the year is February, and its last day may be the leap day
    have hk2 : k = 2 := hfeb.2 hlast
    have hstart := hfebruary hlast
    have hyear : (if k ≤ 2 then (y : Int) + era * 400 + 1 else (y : Int) + era * 400)
        = (y : Int) + era * 400 + 1 := if_pos (by omega)
    rw [if_pos hk2, hyear]
    by_cases hend : r = 365
    · rw [isLeapYear_of_yearOfEra (hleap (by omega)), if_pos rfl]
      omega
    · split <;> omega
  · rw [if_neg fun hk2 => hlast (hfeb.1 hk2)]
    split
    · rename_i hshortMonth
      have := hshort (hthirty hshortMonth)
      omega
    · omega

end NetIntent.CivilDate
