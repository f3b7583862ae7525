import NetIntent.Proofs.Calendar
import NetIntent.Time.Reader

namespace NetIntent.Timestamp

/-!
# Timestamps are read back as they were written

* `Timestamp.IsValid` — the points in time of the calendar, which are those that a clock shows;
* `Reader.number?_padded`, `year?_yearText`, `fraction?_fractionText` — each part is read back from
  its text, whatever follows it;
* `ofText?_text` — a point in time is read back from its text.
-/

/-- A point in time of the calendar: the nanoseconds of one second, or of a leap second at the end
    of a minute, in a year that can be read. -/
def IsValid (t : Timestamp) : Prop :=
  (t.nanos < nanosPerSecond ∨ t.nanos < 2 * nanosPerSecond ∧ t.seconds % 60 = 59) ∧
    minYear ≤ (CivilDate.ofDays (Int.fdiv t.seconds 86400)).year ∧
    (CivilDate.ofDays (Int.fdiv t.seconds 86400)).year ≤ maxYear

/-- Whether a point in time is one of the calendar can be decided. -/
instance (t : Timestamp) : Decidable t.IsValid :=
  inferInstanceAs (Decidable ((_ ∨ _ ∧ _) ∧ _ ∧ _))

/-! ### Digits -/

/-- A number is padded with zeros before its digits. -/
theorem toList_padded (width n : Nat) :
    (padded width n).toList
      = List.replicate (width - (Nat.toDigits 10 n).length) '0' ++ Nat.toDigits 10 n := by
  simp [padded]

/-- A padded number has digits only. -/
theorem isDigit_padded {width n : Nat} {c : Char} (h : c ∈ (padded width n).toList) :
    c.isDigit = true := by
  rw [toList_padded, List.mem_append] at h
  rcases h with h | h
  · rw [List.eq_of_mem_replicate h]
    rfl
  · exact Nat.isDigit_of_mem_toDigits (by decide) (by decide) h

/-- A padded number has at least one digit. -/
theorem padded_ne_nil (width n : Nat) : (padded width n).toList ≠ [] := by
  rw [toList_padded]
  simp [Nat.toDigits_ne_nil]

/-- A number that fits is padded to the width. -/
theorem length_padded {width n : Nat} (hw : 0 < width) (h : n < Nat.pow 10 width) :
    (padded width n).toList.length = width := by
  have hlen := (Nat.length_toDigits_le_iff (b := 10) (by decide) hw).2 h
  rw [toList_padded, List.length_append, List.length_replicate]
  omega

/-- A padded number has the value of the number. -/
theorem value_padded (width n : Nat) : Reader.value (padded width n).toList = n := by
  have hfold : ∀ ds : List Char, Reader.value ds = Nat.ofDigitChars 10 ds 0 := fun ds => by
    rw [Nat.ofDigitChars_eq_foldl]
    simp only [Reader.value, Nat.mul_comm]
  rw [hfold, toList_padded, Nat.ofDigitChars_append, Nat.ofDigitChars_replicate_zero, Nat.mul_zero,
    Nat.ofDigitChars_toDigits (by decide) (by decide)]

/-! ### Blanks -/

/-- Digits are not blanks. -/
theorem isBlank_of_isDigit {c : Char} (h : c.isDigit = true) : Text.isBlank c = false := by
  have hrange : 48 ≤ c.toNat ∧ c.toNat ≤ 57 := by
    simpa [Char.isDigit, UInt32.le_iff_toNat_le] using h
  simp [Text.isBlank, Text.blankRanges]
  omega

/-- Nothing is trimmed before a character that is not a blank. -/
theorem trimStart_cons {c : Char} (h : Text.isBlank c = false) (rest : List Char) :
    Text.trimStart (c :: rest) = c :: rest := by
  simp [Text.trimStart, h]

/-- Nothing is trimmed before digits. -/
theorem trimStart_digits {ds rest : List Char} (hne : ds ≠ []) (hd : ∀ c ∈ ds, c.isDigit = true) :
    Text.trimStart (ds ++ rest) = ds ++ rest := by
  obtain ⟨c, ds, rfl⟩ := List.exists_cons_of_ne_nil hne
  exact trimStart_cons (isBlank_of_isDigit (hd c List.mem_cons_self)) _

/-! ### The parts of a timestamp -/

namespace Reader

/-- Digits are read to their end, where it is fixed or something else follows. -/
theorem digits_append {most : Nat} {ds : List Char} (rest : List Char)
    (hd : ∀ c ∈ ds, c.isDigit = true)
    (hend : ds.length = most ∨ ds.length ≤ most ∧ ∀ c, rest.head? = some c → c.isDigit = false) :
    digits most (ds ++ rest) = (ds, rest) := by
  have htaken : ((ds ++ rest).take most).takeWhile Char.isDigit = ds := by
    rcases hend with hlen | ⟨hlen, hrest⟩
    · -- there are as many digits as may be read
      rw [← hlen, List.take_left]
      have htake := @List.takeWhile_append_of_pos _ Char.isDigit ds [] hd
      simpa using htake
    · -- what may be read beyond the digits does not begin with one
      rw [List.take_append, List.take_of_length_le hlen, List.takeWhile_append_of_pos hd]
      have hnil : (rest.take (most - ds.length)).takeWhile Char.isDigit = [] := by
        cases rest with
        | nil => simp
        | cons c rest =>
          cases hk : most - ds.length with
          | zero => rfl
          | succ k => simp [hrest c rfl]
      rw [hnil, List.append_nil]
  simp only [digits, htaken, List.drop_left']

/-- A number of two digits is read back, whatever follows it. -/
theorem number?_padded {n : Nat} (h : n < 100) (rest : List Char) :
    number? 2 ((padded 2 n).toList ++ rest) = some (n, rest) := by
  have hd : ∀ c ∈ (padded 2 n).toList, c.isDigit = true := fun _ => isDigit_padded
  rw [number?, trimStart_digits (padded_ne_nil 2 n) hd,
    digits_append rest hd (.inl (length_padded (by decide) h))]
  obtain ⟨c, ds, hcons⟩ := List.exists_cons_of_ne_nil (padded_ne_nil 2 n)
  have hvalue := value_padded 2 n
  rw [hcons] at hvalue ⊢
  simp [hvalue]

/-- A mark is read where it stands. -/
theorem mark?_cons {c : Char} (h : Text.isBlank c = false) (rest : List Char) :
    mark? c (c :: rest) = some rest := by
  simp [mark?, trimStart_cons h]

/-- The digits of a year after its sign, up to the mark after it. -/
theorem digits_year (n : Nat) (rest : List Char) :
    digits ((padded 4 n).toList ++ '-' :: rest).length ((padded 4 n).toList ++ '-' :: rest)
      = ((padded 4 n).toList, '-' :: rest) := by
  refine digits_append _ (fun _ => isDigit_padded) (.inr ⟨by simp, fun c hc => ?_⟩)
  rw [← Option.some.inj hc]
  rfl

/-- A year with a sign is read back up to the mark that follows it. -/
theorem year?_minus (n : Nat) (rest : List Char) :
    year? ('-' :: ((padded 4 n).toList ++ '-' :: rest)) = some (-(n : Int), '-' :: rest) := by
  have hvalue := value_padded 4 n
  obtain ⟨c, ds, hcons⟩ := List.exists_cons_of_ne_nil (padded_ne_nil 4 n)
  unfold year?
  rw [trimStart_cons (by decide)]
  simp only [digits_year]
  rw [hcons] at hvalue ⊢
  simp only [hvalue]

/-- A year after a plus sign is read back up to the mark that follows it. -/
theorem year?_plus (n : Nat) (rest : List Char) :
    year? ('+' :: ((padded 4 n).toList ++ '-' :: rest)) = some ((n : Int), '-' :: rest) := by
  have hvalue := value_padded 4 n
  obtain ⟨c, ds, hcons⟩ := List.exists_cons_of_ne_nil (padded_ne_nil 4 n)
  unfold year?
  rw [trimStart_cons (by decide)]
  simp only [digits_year]
  rw [hcons] at hvalue ⊢
  simp only [hvalue]

/-- A year is read back up to the mark that follows it. -/
theorem year?_yearText (year : Int) (rest : List Char) :
    year? ((yearText year).toList ++ '-' :: rest) = some (year, '-' :: rest) := by
  have hd : ∀ {n : Nat}, ∀ c ∈ (padded 4 n).toList, c.isDigit = true := fun _ => isDigit_padded
  unfold yearText
  split
  · rename_i hrange
    have hlen : (padded 4 year.toNat).toList.length = 4 :=
      length_padded (by decide) (show year.toNat < 10000 by omega)
    obtain ⟨c, ds, hcons⟩ := List.exists_cons_of_ne_nil (padded_ne_nil 4 year.toNat)
    have hdigit : c.isDigit = true := hd c (hcons ▸ List.mem_cons_self)
    have hread := digits_append ('-' :: rest) hd (.inl hlen)
    have hvalue := value_padded 4 year.toNat
    rw [hcons] at hread hvalue ⊢
    -- A digit is neither of the signs.
    have hminus : c ≠ '-' := fun h => by simp [h] at hdigit
    have hplus : c ≠ '+' := fun h => by simp [h] at hdigit
    unfold year?
    rw [List.cons_append, trimStart_cons (isBlank_of_isDigit hdigit)]
    rw [List.cons_append] at hread
    simp [hminus, hplus, hread, hvalue, Int.toNat_of_nonneg hrange.1]
  · -- a year of another length has a sign
    rw [String.toList_append, List.append_assoc]
    split
    · rename_i hneg
      have hyear : -(year.natAbs : Int) = year := by omega
      have hsign : ("-" : String).toList = ['-'] := rfl
      rw [hsign, List.singleton_append, year?_minus, hyear]
    · rename_i hneg
      have hyear : (year.natAbs : Int) = year := by omega
      have hsign : ("+" : String).toList = ['+'] := rfl
      rw [hsign, List.singleton_append, year?_plus, hyear]

/-- A group of digits after the point of a second is read back up to the letter of the offset. -/
theorem fraction?_padded {width n : Nat} (hw : 0 < width) (hmost : width ≤ 9)
    (h : n < Nat.pow 10 width) (rest : List Char) :
    fraction? ('.' :: ((padded width n).toList ++ 'Z' :: rest))
      = some (n * Nat.pow 10 (9 - width), 'Z' :: rest) := by
  have hlen := length_padded hw h
  have hread : digits 9 ((padded width n).toList ++ 'Z' :: rest)
      = ((padded width n).toList, 'Z' :: rest) := by
    have hfit : (padded width n).toList.length ≤ 9 := by rwa [hlen]
    refine digits_append _ (fun _ => isDigit_padded) (.inr ⟨hfit, fun c hc => ?_⟩)
    rw [← Option.some.inj hc]
    rfl
  have hvalue := value_padded width n
  obtain ⟨c, ds, hcons⟩ := List.exists_cons_of_ne_nil (padded_ne_nil width n)
  rw [hcons] at hread hvalue hlen ⊢
  simp only [fraction?, hread, hvalue, hlen]
  rfl

/-- The nanoseconds of a second are read back up to the letter of the offset. -/
theorem fraction?_fractionText {nanos : Nat} (h : nanos < nanosPerSecond) (rest : List Char) :
    fraction? ((fractionText nanos).toList ++ 'Z' :: rest) = some (nanos, 'Z' :: rest) := by
  have hpoint : ∀ width n : Nat, ("." ++ padded width n).toList ++ 'Z' :: rest
      = '.' :: ((padded width n).toList ++ 'Z' :: rest) := fun width n => by
    rw [String.toList_append]
    rfl
  have hbound : nanos < 1000000000 := h
  -- The fraction is written in none, three, six or nine digits, as few as are enough.
  unfold fractionText
  split
  · rename_i hzero
    rw [hzero]
    rfl
  · split
    · rename_i hmillis
      have hfit : nanos / 1000000 < 1000 := by omega
      rw [hpoint, fraction?_padded (by decide) (by decide) hfit]
      congr 2
      show nanos / 1000000 * 1000000 = nanos
      omega
    · split
      · rename_i hmicros
        have hfit : nanos / 1000 < 1000000 := by omega
        rw [hpoint, fraction?_padded (by decide) (by decide) hfit]
        congr 2
        show nanos / 1000 * 1000 = nanos
        omega
      · rw [hpoint, fraction?_padded (by decide) (by decide) hbound]
        congr 2
        exact Nat.mul_one nanos

end Reader

/-! ### The whole -/

/-- The parts of a point in time make it up again. -/
theorem ofParts?_parts {t : Timestamp} (h : t.IsValid) :
    ofParts? (CivilDate.ofDays (Int.fdiv t.seconds 86400))
      ((Int.fmod t.seconds 86400).toNat / 3600) ((Int.fmod t.seconds 86400).toNat / 60 % 60)
      ((Int.fmod t.seconds 86400).toNat % 60 + t.nanos / nanosPerSecond)
      (t.nanos % nanosPerSecond) 0 = some t := by
  obtain ⟨hnanos, hmin, hmax⟩ := h
  simp only [nanosPerSecond] at hnanos ⊢
  have hfdiv : Int.fdiv t.seconds 86400 = t.seconds / 86400 :=
    Int.fdiv_eq_ediv_of_nonneg _ (by decide)
  have hfmod : Int.fmod t.seconds 86400 = t.seconds % 86400 :=
    Int.fmod_eq_emod_of_nonneg _ (by decide)
  rw [hfdiv] at hmin hmax ⊢
  rw [hfmod]
  generalize hs : (t.seconds % 86400).toNat = s
  -- The nanoseconds of a leap second are more than those of one second.
  have hleap : decide (s % 60 + t.nanos / 1000000000 = 60) = decide (1000000000 ≤ t.nanos) := by
    rw [decide_eq_decide]
    omega
  have hvalid : (CivilDate.ofDays (t.seconds / 86400)).isValid = true :=
    CivilDate.isValid_ofDays _
  have hdays : (CivilDate.ofDays (t.seconds / 86400)).toDays = t.seconds / 86400 :=
    CivilDate.toDays_ofDays _
  have hsecond : (if s % 60 + t.nanos / 1000000000 = 60 then 59
      else s % 60 + t.nanos / 1000000000) = s % 60 := by
    split <;> omega
  have hwall : t.seconds / 86400 * 86400
      + ((s / 3600 * 3600 + s / 60 % 60 * 60 + s % 60 : Nat) : Int) - 0 = t.seconds := by omega
  have hsub : (if s % 60 + t.nanos / 1000000000 = 60 then t.nanos % 1000000000 + 1000000000
      else t.nanos % 1000000000) = t.nanos := by
    split <;> omega
  unfold ofParts?
  rw [hvalid, if_neg (by simp; omega), if_neg (by simp; omega)]
  simp only [hsecond, hdays, hwall, hsub, nanosPerSecond, hfdiv]
  rw [if_neg (by omega)]

/-- A point in time is read back from its text. -/
theorem ofText?_text {t : Timestamp} (h : t.IsValid) : ofText? t.text = some t := by
  have hday := CivilDate.isValid_ofDays (Int.fdiv t.seconds 86400)
  simp only [CivilDate.isValid, decide_eq_true_eq] at hday
  have hlength : CivilDate.monthLength (CivilDate.ofDays (Int.fdiv t.seconds 86400)).year
      (CivilDate.ofDays (Int.fdiv t.seconds 86400)).month ≤ 31 := by
    unfold CivilDate.monthLength
    split <;> split <;> omega
  have hfmod : Int.fmod t.seconds 86400 = t.seconds % 86400 :=
    Int.fmod_eq_emod_of_nonneg _ (by decide)
  have hnanos : t.nanos < 2 * nanosPerSecond := by
    rcases h.1 with hlt | ⟨hlt, -⟩ <;> simp only [nanosPerSecond] at hlt ⊢ <;> omega
  have hparts := ofParts?_parts h
  generalize hdate : CivilDate.ofDays (Int.fdiv t.seconds 86400) = date at *
  generalize hs : (Int.fmod t.seconds 86400).toNat = s at *
  have hlt : s < 86400 := by omega
  have hcarry : t.nanos / nanosPerSecond ≤ 1 := by
    simp only [nanosPerSecond] at hnanos ⊢
    omega
  have hfraction : t.nanos % nanosPerSecond < nanosPerSecond := Nat.mod_lt _ (by decide)
  have htext : t.text.toList = (yearText date.year).toList ++ '-' :: ((padded 2 date.month).toList
      ++ '-' :: ((padded 2 date.day).toList ++ 'T' :: ((padded 2 (s / 3600)).toList
      ++ ':' :: ((padded 2 (s / 60 % 60)).toList
      ++ ':' :: ((padded 2 (s % 60 + t.nanos / nanosPerSecond)).toList
      ++ ((fractionText (t.nanos % nanosPerSecond)).toList ++ ['Z'])))))) := by
    simp [text, hdate, hs]
  -- Part by part, each reader leaves the text of the parts after it.
  unfold ofText?
  rw [htext, Reader.year?_yearText]
  simp only [Option.bind_eq_bind, Option.bind_some]
  rw [Reader.mark?_cons (by decide), Option.bind_some, Reader.number?_padded (by omega)]
  simp only [Option.bind_some]
  rw [Reader.mark?_cons (by decide), Option.bind_some, Reader.number?_padded (by omega)]
  simp only [Option.bind_some, Reader.separator?, true_or, if_true]
  rw [Reader.number?_padded (by omega)]
  simp only [Option.bind_some]
  rw [Reader.mark?_cons (by decide), Option.bind_some, Reader.number?_padded (by omega)]
  simp only [Option.bind_some]
  rw [Reader.mark?_cons (by decide), Option.bind_some, Reader.number?_padded (by omega)]
  simp only [Option.bind_some]
  rw [Reader.fraction?_fractionText hfraction]
  simp only [Option.bind_some]
  rw [trimStart_cons (by decide)]
  have hoffset : Reader.offset? ['Z'] = some (0, []) := rfl
  have hrest : (Text.trimStart []).isEmpty = true := rfl
  rw [hoffset, Option.bind_some, if_pos hrest]
  exact hparts

end NetIntent.Timestamp
