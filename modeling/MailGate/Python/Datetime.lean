import MailGate.Python.Json.RoundTrip

/-!
# Datetimes as text

`datetime.isoformat` of a datetime in UTC, which is given by its microseconds since 1970.  Two
datetimes are written alike only if they are one.
-/

namespace MailGate

/-! ## Dates -/

/-- A date of the proleptic Gregorian calendar. -/
structure Date where
  year : ℕ
  month : ℕ
  day : ℕ
deriving DecidableEq, Repr

namespace Date

/-- `_is_leap`. -/
def isLeap (year : ℕ) : Bool := year % 4 = 0 ∧ (year % 100 ≠ 0 ∨ year % 400 = 0)

/-- `_DAYS_BEFORE_MONTH`, with the leap day of the year. -/
def daysBeforeMonth (leap : Bool) (month : ℕ) : ℕ :=
  [0, 0, 31, 59, 90, 120, 151, 181, 212, 243, 273, 304, 334].getD month 0 +
    if 2 < month ∧ leap then 1 else 0

/-- The month and the day of a day of the year, which counts from 0. -/
def ofDayOfYear (leap : Bool) (n : ℕ) : ℕ × ℕ :=
  let month := (n + 50) / 32
  let month := if daysBeforeMonth leap month > n then month - 1 else month
  (month, n - daysBeforeMonth leap month + 1)

/-- `_ord2ymd`: the date of a day, where day 1 is 0001-01-01. -/
def ofOrdinal (ordinal : ℕ) : Date :=
  let n := ordinal - 1
  let n400 := n / 146097
  let n100 := n % 146097 / 36524
  let n4 := n % 146097 % 36524 / 1461
  let n1 := n % 146097 % 36524 % 1461 / 365
  let year := n400 * 400 + 1 + n100 * 100 + n4 * 4 + n1
  if n1 = 4 ∨ n100 = 4 then ⟨year - 1, 12, 31⟩
  else
    let leap : Bool := n1 = 3 ∧ (n4 ≠ 24 ∨ n100 = 3)
    let date := ofDayOfYear leap (n % 146097 % 36524 % 1461 % 365)
    ⟨year, date.1, date.2⟩

example : ofOrdinal 719163 = ⟨1970, 1, 1⟩ := by decide

example : ofOrdinal 730179 = ⟨2000, 2, 29⟩ := by decide

/-- `_ymd2ord`. -/
def toOrdinal (d : Date) : ℕ :=
  let y := d.year - 1
  y * 365 + y / 4 - y / 100 + y / 400 + daysBeforeMonth (isLeap d.year) d.month + d.day

lemma toOrdinal_ofDayOfYear (leap : Bool) {n : ℕ} (hn : n < 365) :
    daysBeforeMonth leap (ofDayOfYear leap n).1 + (ofDayOfYear leap n).2 = n + 1 := by
  have hall : ∀ leap : Bool, ∀ n : Fin 365,
      daysBeforeMonth leap (ofDayOfYear leap n).1 + (ofDayOfYear leap n).2 = n + 1 := by
    decide +kernel
  exact hall leap ⟨n, hn⟩

/-- The days before a year, by the centuries, the groups of four years and the years. -/
lemma daysBeforeYear_eq {a b c d y : ℕ} (hb : b ≤ 3) (hc : c ≤ 24) (hd : d ≤ 3)
    (hy : y = 400 * a + 100 * b + 4 * c + d) :
    y * 365 + y / 4 - y / 100 + y / 400 = 146097 * a + 36524 * b + 1461 * c + 365 * d := by
  have hfour : y / 4 = 100 * a + 25 * b + c := by omega
  have hcentury : y / 100 = 4 * a + b := by omega
  have hera : y / 400 = a := by omega
  omega

lemma isLeap_eq {a b c d : ℕ} (hb : b ≤ 3) (hc : c ≤ 24) (hd : d ≤ 3) :
    isLeap (400 * a + 100 * b + 4 * c + d + 1) = decide (d = 3 ∧ (c ≠ 24 ∨ b = 3)) := by
  rw [isLeap, decide_eq_decide]
  omega

lemma toOrdinal_ofOrdinal {ordinal : ℕ} (h : 0 < ordinal) :
    (ofOrdinal ordinal).toOrdinal = ordinal := by
  obtain ⟨n, rfl⟩ := Nat.exists_eq_add_one.2 h
  simp only [ofOrdinal, Nat.add_sub_cancel]
  obtain ⟨a, ha⟩ : ∃ a, n / 146097 = a := ⟨_, rfl⟩
  obtain ⟨b, hb⟩ : ∃ b, n % 146097 / 36524 = b := ⟨_, rfl⟩
  obtain ⟨c, hc⟩ : ∃ c, n % 146097 % 36524 / 1461 = c := ⟨_, rfl⟩
  obtain ⟨d, hd⟩ : ∃ d, n % 146097 % 36524 % 1461 / 365 = d := ⟨_, rfl⟩
  obtain ⟨r, hr⟩ : ∃ r, n % 146097 % 36524 % 1461 % 365 = r := ⟨_, rfl⟩
  have hsum : n = 146097 * a + 36524 * b + 1461 * c + 365 * d + r := by omega
  have hc24 : c ≤ 24 := by omega
  rw [ha, hb, hc, hd, hr]
  split_ifs with hlast
  · -- the last day of a leap year
    obtain ⟨b', c', hb', hc', hyear, hday, hleap⟩ : ∃ b' c', b' ≤ 3 ∧ c' ≤ 24 ∧
        a * 400 + 1 + b * 100 + c * 4 + d - 1 = 400 * a + 100 * b' + 4 * c' + 3 + 1 ∧
          n = 146097 * a + 36524 * b' + 1461 * c' + 365 * 3 + 365 ∧ (c' ≠ 24 ∨ b' = 3) := by
      by_cases hb4 : b = 4
      · exact ⟨3, 24, by omega, by omega, by omega, by omega, .inr rfl⟩
      · exact ⟨b, c, by omega, by omega, by omega, by omega, by omega⟩
    rw [hyear, toOrdinal, isLeap_eq hb' hc' (by omega),
      daysBeforeYear_eq hb' hc' (by omega) (Nat.add_sub_cancel _ _)]
    simp only [hleap, and_self, decide_true]
    have hdecember : daysBeforeMonth true 12 = 335 := by decide
    omega
  · have hyear : a * 400 + 1 + b * 100 + c * 4 + d = 400 * a + 100 * b + 4 * c + d + 1 := by omega
    have hday := toOrdinal_ofDayOfYear (decide (d = 3 ∧ (c ≠ 24 ∨ b = 3)))
      (show r < 365 by omega)
    rw [hyear, toOrdinal, isLeap_eq (by omega) hc24 (by omega),
      daysBeforeYear_eq (by omega) hc24 (by omega) (Nat.add_sub_cancel _ _)]
    dsimp only
    omega

lemma ofOrdinal_injective {m n : ℕ} (hm : 0 < m) (hn : 0 < n)
    (h : ofOrdinal m = ofOrdinal n) : m = n := by
  rw [← toOrdinal_ofOrdinal hm, h, toOrdinal_ofOrdinal hn]

/-- The fields of a date are written with four and two digits. -/
lemma ofOrdinal_bounds {ordinal : ℕ} (hmax : ordinal ≤ 3652059) :
    (ofOrdinal ordinal).year < 10000 ∧ (ofOrdinal ordinal).month < 100 ∧
      (ofOrdinal ordinal).day < 100 := by
  have hall : ∀ leap : Bool, ∀ n : Fin 365,
      (ofDayOfYear leap n).1 < 100 ∧ (ofDayOfYear leap n).2 < 100 := by
    decide +kernel
  have hyear : (ordinal - 1) / 146097 * 400 + 1 + (ordinal - 1) % 146097 / 36524 * 100 +
      (ordinal - 1) % 146097 % 36524 / 1461 * 4 +
        (ordinal - 1) % 146097 % 36524 % 1461 / 365 < 10000 := by
    omega
  simp only [ofOrdinal]
  split_ifs with hlast
  · dsimp only
    omega
  · have hday := hall (decide ((ordinal - 1) % 146097 % 36524 % 1461 / 365 = 3 ∧
      ((ordinal - 1) % 146097 % 36524 / 1461 ≠ 24 ∨ (ordinal - 1) % 146097 / 36524 = 3)))
        ⟨(ordinal - 1) % 146097 % 36524 % 1461 % 365, Nat.mod_lt _ (by decide)⟩
    exact ⟨hyear, hday.1, hday.2⟩

end Date

/-! ## Numbers of fixed width -/

/-- `f"{n:0{width}d}"` of a number that has no more digits. -/
def zeroPadded : ℕ → ℕ → PyStr
  | 0, _ => []
  | width + 1, n => zeroPadded width (n / 10) ++ [Json.digitChar (n % 10)]

@[simp] lemma length_zeroPadded (width n : ℕ) : (zeroPadded width n).length = width := by
  induction width generalizing n with
  | zero => rfl
  | succ width ih => rw [zeroPadded, List.length_append, ih, List.length_singleton]

lemma zeroPadded_injective {width m n : ℕ} (hm : m < 10 ^ width) (hn : n < 10 ^ width)
    (h : zeroPadded width m = zeroPadded width n) : m = n := by
  induction width generalizing m n with
  | zero => omega
  | succ width ih =>
    rw [Nat.pow_succ] at hm hn
    rw [zeroPadded, zeroPadded] at h
    obtain ⟨hinit, hlast⟩ := List.append_inj' h rfl
    have hhigh : m / 10 = n / 10 := ih (by omega) (by omega) hinit
    have hlow := congrArg Fin.val (List.cons.inj hlast).1
    rw [Json.digitChar_val (Nat.mod_lt _ (by decide)),
      Json.digitChar_val (Nat.mod_lt _ (by decide))] at hlow
    omega

lemma zeroPadded_printable (width n : ℕ) : ∀ c ∈ zeroPadded width n, Json.Printable c := by
  induction width generalizing n with
  | zero => simp [zeroPadded]
  | succ width ih =>
    intro c hc
    rw [zeroPadded, List.mem_append, List.mem_singleton] at hc
    rcases hc with hc | rfl
    · exact ih _ c hc
    · have hval := Json.digitChar_val (Nat.mod_lt n (show 0 < 10 by decide))
      rw [Json.Printable]
      omega

/-! ## Datetimes -/

namespace Datetime

/-- `datetime.min` and `datetime.max`, in microseconds since 1970. -/
def Representable (t : ℤ) : Prop := -62135596800000000 ≤ t ∧ t < 253402300800000000

instance (t : ℤ) : Decidable (Representable t) := by
  unfold Representable
  infer_instance

/-- The ordinal of the day, and the microseconds of the day. -/
def dayAndTime (t : ℤ) : ℕ × ℕ := ((t / 86400000000 + 719163).toNat, (t % 86400000000).toNat)

/-- The microseconds, unless there are none. -/
def fraction (micros : ℕ) : PyStr := if micros = 0 then [] else ofChar '.' :: zeroPadded 6 micros

/-- The fields of the text and what stands between them. -/
def fields (t : ℤ) : List PyStr :=
  let date := Date.ofOrdinal (dayAndTime t).1
  let micros := (dayAndTime t).2
  [zeroPadded 4 date.year, py "-", zeroPadded 2 date.month, py "-", zeroPadded 2 date.day, py "T",
    zeroPadded 2 (micros / 3600000000), py ":", zeroPadded 2 (micros / 60000000 % 60), py ":",
    zeroPadded 2 (micros / 1000000 % 60), fraction (micros % 1000000), py "+00:00"]

/-- `datetime.isoformat()` in UTC. -/
def isoformat (t : ℤ) : PyStr := (fields t).flatten

example : isoformat 1700000000500000 = py "2023-11-14T22:13:20.500000+00:00" := by decide

lemma fraction_injective {m n : ℕ} (hm : m < 1000000) (hn : n < 1000000)
    (h : fraction m = fraction n) : m = n := by
  unfold fraction at h
  split_ifs at h with hm0 hn0 hn0
  · rw [hm0, hn0]
  · exact zeroPadded_injective hm hn (List.cons.inj h).2

/-- Texts of one length have fields of the same lengths. -/
lemma length_fields {t u : ℤ} (h : isoformat t = isoformat u) :
    (fields t).map List.length = (fields u).map List.length := by
  have hlength := congrArg List.length h
  simp only [isoformat, fields, List.flatten_cons, List.flatten_nil, List.length_append,
    length_zeroPadded] at hlength
  simp only [fields, List.map_cons, List.map_nil, length_zeroPadded]
  have hfraction : (fraction ((dayAndTime t).2 % 1000000)).length =
      (fraction ((dayAndTime u).2 % 1000000)).length := by
    omega
  rw [hfraction]

/-- Datetimes that are written alike are one. -/
theorem isoformat_injective {t u : ℤ} (ht : Representable t) (hu : Representable u)
    (h : isoformat t = isoformat u) : t = u := by
  unfold Representable at ht hu
  have hfields : fields t = fields u := List.eq_iff_flatten_eq.2 ⟨h, length_fields h⟩
  simp only [fields, List.cons.injEq, true_and, and_true] at hfields
  obtain ⟨hyear, hmonth, hday, hhour, hminute, hsecond, hmicros⟩ := hfields
  have htday : 0 < (dayAndTime t).1 ∧ (dayAndTime t).1 ≤ 3652059 := by
    simp only [dayAndTime]
    omega
  have huday : 0 < (dayAndTime u).1 ∧ (dayAndTime u).1 ≤ 3652059 := by
    simp only [dayAndTime]
    omega
  obtain ⟨hty, htm, htd⟩ := Date.ofOrdinal_bounds htday.2
  obtain ⟨huy, hum, hud⟩ := Date.ofOrdinal_bounds huday.2
  have hdate : Date.ofOrdinal (dayAndTime t).1 = Date.ofOrdinal (dayAndTime u).1 := by
    have hy := zeroPadded_injective hty huy hyear
    have hm := zeroPadded_injective htm hum hmonth
    have hd := zeroPadded_injective htd hud hday
    cases hdt : Date.ofOrdinal (dayAndTime t).1
    cases hdu : Date.ofOrdinal (dayAndTime u).1
    simp_all
  have hordinal := Date.ofOrdinal_injective htday.1 huday.1 hdate
  have htime : (dayAndTime t).2 = (dayAndTime u).2 := by
    have hlt : (dayAndTime t).2 < 86400000000 ∧ (dayAndTime u).2 < 86400000000 := by
      simp only [dayAndTime]
      omega
    have hh := zeroPadded_injective (by omega) (by omega) hhour
    have hm := zeroPadded_injective (by omega) (by omega) hminute
    have hs := zeroPadded_injective (by omega) (by omega) hsecond
    have hf := fraction_injective (by omega) (by omega) hmicros
    omega
  simp only [dayAndTime] at hordinal htime
  omega

lemma isoformat_printable (t : ℤ) : ∀ c ∈ isoformat t, Json.Printable c := by
  have hfraction : ∀ n, ∀ c ∈ fraction n, Json.Printable c := by
    intro n c hc
    unfold fraction at hc
    split_ifs at hc
    · cases hc
    · rcases List.mem_cons.1 hc with rfl | hc
      · decide
      · exact zeroPadded_printable _ _ c hc
  have hdash := Json.printable_of_all (w := py "-") (by decide)
  have hletter := Json.printable_of_all (w := py "T") (by decide)
  have hcolon := Json.printable_of_all (w := py ":") (by decide)
  have hoffset := Json.printable_of_all (w := py "+00:00") (by decide)
  have hfields : ∀ w ∈ fields t, ∀ c ∈ w, Json.Printable c := by
    simp only [fields, List.forall_mem_cons, List.not_mem_nil, false_implies, implies_true,
      and_true]
    exact ⟨zeroPadded_printable _ _, hdash, zeroPadded_printable _ _, hdash,
      zeroPadded_printable _ _, hletter, zeroPadded_printable _ _, hcolon,
      zeroPadded_printable _ _, hcolon, zeroPadded_printable _ _, hfraction _, hoffset⟩
  intro c hc
  obtain ⟨w, hw, hc⟩ := List.mem_flatten.1 hc
  exact hfields w hw c hc

end Datetime

end MailGate
