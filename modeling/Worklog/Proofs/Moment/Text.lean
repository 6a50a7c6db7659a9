import Worklog.Field.Timestamp
import Worklog.Proofs.Calendar

namespace Worklog

namespace Digits

variable {width n k : Nat} {rest : List Char}

theorem isDigit_of_mem_fixed {c : Char} (h : c ∈ fixed width n) : c.isDigit = true := by
  induction width generalizing n with
  | zero => cases h
  | succ width ih =>
    rw [fixed, List.mem_append, List.mem_singleton] at h
    obtain h | rfl := h
    · exact ih h
    · rw [Nat.isDigit_digitChar, decide_eq_true (Nat.mod_lt n (by decide))]

theorem ofDigitChars_fixed (h : n < 10 ^ width) : Nat.ofDigitChars 10 (fixed width n) 0 = n := by
  induction width generalizing n with
  | zero =>
    rw [Nat.pow_zero, Nat.lt_one_iff] at h
    rw [h]
    rfl
  | succ width ih =>
    rw [Nat.pow_succ] at h
    have hlast : ∀ d : Fin 10, d.val.digitChar.toNat = d.val + 48 := by decide
    have hdigit : (n % 10).digitChar.toNat = n % 10 + 48 := hlast ⟨n % 10, Nat.mod_lt n (by decide)⟩
    have hzero : '0'.toNat = 48 := rfl
    rw [fixed, Nat.ofDigitChars_append, ih (by omega), Nat.ofDigitChars_cons, Nat.ofDigitChars_nil, hdigit,
      hzero]
    omega

/-- A number of a fixed width is read back from the front of a text. -/
theorem take?_fixed (h : n < 10 ^ width) (rest : List Char) :
    take? width (fixed width n ++ rest) = some n := by
  have hall : (fixed width n).all Char.isDigit = true :=
    List.all_eq_true.mpr fun c hc => isDigit_of_mem_fixed hc
  rw [take?, List.take_left' (length_fixed width n), if_pos (length_fixed width n), value?, if_pos hall,
    ofDigitChars_fixed h]

theorem drop_fixed (h : width ≤ k) : (fixed width n ++ rest).drop k = rest.drop (k - width) := by
  rw [List.drop_append, length_fixed, List.drop_of_length_le (by rwa [length_fixed]), List.nil_append]

theorem getElem?_fixed (h : width ≤ k) : (fixed width n ++ rest)[k]? = rest[k - width]? := by
  rw [List.getElem?_append_right (by rwa [length_fixed]), length_fixed]

end Digits

namespace Date

theorem length_le_byteLength (cs : List Char) : cs.length ≤ byteLength cs := by
  induction cs with
  | nil => exact Nat.le_refl 0
  | cons c cs ih =>
    have hsize := c.utf8Size_pos
    rw [byteLength, List.foldr_cons, ← byteLength, List.length_cons]
    omega

/-- A date is read back from the front of a text. -/
theorem readCalendar_renderDate {d : Date} (h : d.Valid) (rest : List Char) :
    readCalendar (Moment.renderDate d ++ rest) = .ok d := by
  obtain ⟨⟨hfirst, hyear⟩, ⟨hlow, hmonth⟩, hone, hday⟩ := h
  have hshort := daysIn_le d.year d.month
  have hlong := length_le_byteLength (Moment.renderDate d ++ rest)
  simp only [Moment.renderDate, List.append_assoc, List.cons_append, List.length_append, List.length_cons,
    Digits.length_fixed] at hlong ⊢
  rw [readCalendar, if_neg (by omega), Digits.take?_fixed (by omega)]
  have hmonthRange : ¬ (d.month < 1 ∨ 12 < d.month) := by omega
  have hdayRange : ¬ (d.day < 1 ∨ daysIn d.year d.month < d.day) := by omega
  simp (disch := omega) only [Digits.drop_fixed, Digits.getElem?_fixed, Digits.take?_fixed,
    List.drop_succ_cons, List.drop_zero, List.getElem?_cons_zero, List.getElem?_cons_succ, Nat.reduceSub,
    ne_eq, not_true, if_false, hmonthRange, hdayRange]

end Date

namespace Moment

variable {rest : List Char} {micros : Nat}

/-- What follows a time: an offset or nothing, so that the time does not go on. -/
def Stops (rest : List Char) : Prop := ∀ c ∈ rest.head?, c ≠ '.' ∧ c ≠ ',' ∧ c.isDigit = false

/-- Six digits are a fraction in microseconds. -/
theorem fraction_fixed (h : micros < secondMicros) : fraction (Digits.fixed 6 micros) = micros := by
  rw [fraction, List.take_left' (Digits.length_fixed 6 micros), Digits.ofDigitChars_fixed h]

theorem span_fixed {width n : Nat} (hrest : Stops rest) :
    (Digits.fixed width n ++ rest).takeWhile Char.isDigit = Digits.fixed width n ∧
      (Digits.fixed width n ++ rest).dropWhile Char.isDigit = rest := by
  have hdigits : ∀ c ∈ Digits.fixed width n, c.isDigit = true := fun c hc => Digits.isDigit_of_mem_fixed hc
  rw [List.takeWhile_append_of_pos hdigits, List.dropWhile_append_of_pos hdigits]
  cases rest with
  | nil => simp
  | cons c rest => simp [(hrest c rfl).2.2]

theorem readSeconds?_renderSeconds (micros : Nat) (hrest : Stops rest) :
    readSeconds? (renderSeconds micros ++ rest) = some (micros % minuteMicros, rest) := by
  have hsecond : micros / secondMicros % 60 < 60 := Nat.mod_lt _ (by decide)
  have hfraction : micros % secondMicros < secondMicros := Nat.mod_lt _ (by decide)
  have hsum : micros / secondMicros % 60 * secondMicros + micros % secondMicros = micros % minuteMicros := by
    simp only [minuteMicros, secondMicros]
    omega
  rw [renderSeconds, List.cons_append, List.cons_append, List.append_assoc, readSeconds?,
    Digits.take?_fixed (by omega), Digits.drop_fixed (Nat.le_refl 2), Nat.sub_self, List.drop_zero]
  by_cases hwhole : micros % secondMicros = 0
  · rw [if_pos hwhole, List.nil_append]
    rw [hwhole, Nat.add_zero] at hsum
    cases rest with
    | nil => simp [hsecond.not_ge, hsum]
    | cons c rest =>
      obtain ⟨hpoint, hcomma, -⟩ := hrest c rfl
      simp [hsecond.not_ge, hpoint, hcomma, hsum]
  · obtain ⟨htake, hdrop⟩ := @span_fixed rest 6 (micros % secondMicros) hrest
    have hne : Digits.fixed 6 (micros % secondMicros) ≠ [] := by
      rw [← List.length_pos_iff, Digits.length_fixed]
      decide
    rw [if_neg hwhole, List.cons_append]
    simp [hsecond.not_ge, htake, hdrop, hne, fraction_fixed hfraction, hsum]

/-- A time of day is read back from the front of a text. -/
theorem readTime?_renderTime (h : micros < dayMicros) (hrest : Stops rest) :
    readTime? (renderTime micros ++ rest) = some (micros, rest) := by
  have hhour : micros / minuteMicros / 60 < 24 := by
    simp only [dayMicros, minuteMicros, secondMicros] at h ⊢
    omega
  have hminute : micros / minuteMicros % 60 < 60 := Nat.mod_lt _ (by decide)
  have hsum : (60 * (micros / minuteMicros / 60) + micros / minuteMicros % 60) * minuteMicros +
      micros % minuteMicros = micros := by
    rw [Nat.div_add_mod, Nat.div_add_mod']
  have hseconds := readSeconds?_renderSeconds micros hrest
  have hrange : ¬ (micros / minuteMicros / 60 ≥ 24 ∨ micros / minuteMicros % 60 ≥ 60) := by omega
  rw [readTime?, renderTime, renderMinutes]
  simp (disch := omega) only [List.append_assoc, List.cons_append, Digits.drop_fixed, Digits.getElem?_fixed,
    Digits.take?_fixed, List.getElem?_cons_zero, List.drop_succ_cons, List.drop_zero, Nat.reduceSub, hrange,
    if_false, hseconds, Option.map_some, hsum]

end Moment

namespace Offset

variable {o : Offset}

theorem eq_of_micros {a b : Offset} (h : a.micros = b.micros) : a = b := by
  cases a
  cases b
  simp_all

/-- The offset is a whole number of minutes. -/
def Whole (o : Offset) : Prop := (minuteMicros : Int) ∣ o.micros

/-- The minutes of an offset, its sign aside. -/
theorem Whole.minutes (h : o.Whole) : ∃ minutes < 1440, o.micros.natAbs = minutes * minuteMicros := by
  obtain ⟨minutes, hminutes⟩ := Int.natCast_dvd.mp h
  obtain ⟨hlow, hhigh⟩ := o.within_day
  refine ⟨minutes, ?_, hminutes.trans (Nat.mul_comm _ _)⟩
  simp only [dayMicros, minuteMicros, secondMicros] at hminutes hlow hhigh
  omega

theorem Whole.seconds_eq (h : o.Whole) : o.seconds * secondMicros = o.micros.natAbs := by
  obtain ⟨minutes, -, hminutes⟩ := h.minutes
  rw [seconds, hminutes]
  simp only [minuteMicros, secondMicros]
  omega

/-- The length of an offset is read back, with the direction that its sign said. -/
theorem readOffset?_renderMinutes {minutes : Nat} (hminutes : minutes < 1440) (west : Bool) :
    ∃ read, Moment.readOffset? west (renderMinutes (minutes * minuteMicros)) = some read ∧
      read.micros =
        if west then -((minutes * minuteMicros : Nat) : Int) else (minutes * minuteMicros : Nat) := by
  have hwhole : minutes * minuteMicros / minuteMicros = minutes := Nat.mul_div_cancel _ (by decide)
  have hsum : 60 * (minutes / 60) + minutes % 60 = minutes := Nat.div_add_mod ..
  have hrange : minutes / 60 < 24 ∧ minutes % 60 < 60 := by omega
  have hend := Digits.take?_fixed (show minutes % 60 < 10 ^ 2 by omega) []
  have hnil := @Digits.drop_fixed 2 (minutes % 60) 2 [] (Nat.le_refl 2)
  rw [List.append_nil] at hend hnil
  rw [renderMinutes, hwhole, Moment.readOffset?]
  simp (disch := omega) only [Digits.drop_fixed, Digits.take?_fixed, List.head?_cons, List.drop_succ_cons,
    List.drop_zero, Nat.reduceSub, if_true, hend, hnil, List.drop_nil, hsum, hrange, and_self, dite_true]
  refine ⟨_, rfl, ?_⟩
  split <;> rfl

theorem readZone?_plus (cs : List Char) :
    Moment.readZone? ('+' :: cs) = (Moment.readOffset? false cs).map some := rfl

theorem readZone?_minus (cs : List Char) :
    Moment.readZone? ('-' :: cs) = (Moment.readOffset? true cs).map some := rfl

/-- An offset is read back up to the end of a text. -/
theorem Whole.readZone?_render (h : o.Whole) : Moment.readZone? (o.render .letter) = some (some o) := by
  obtain ⟨minutes, hlt, hminutes⟩ := h.minutes
  have hseconds := h.seconds_eq
  by_cases hzero : o.seconds = 0
  · rw [hzero, Nat.zero_mul] at hseconds
    have hutc : Offset.utc = o := eq_of_micros (Int.natAbs_eq_zero.mp hseconds.symm).symm
    rw [render, if_pos hzero, ← hutc]
    rfl
  · rw [render, if_neg hzero, hseconds, hminutes]
    by_cases hwest : o.micros < 0
    · obtain ⟨read, hread, hmicros⟩ := readOffset?_renderMinutes hlt true
      have hsame : read = o := eq_of_micros (by rw [hmicros, if_pos rfl]; omega)
      rw [if_pos hwest, readZone?_minus, hread, hsame, Option.map_some]
    · obtain ⟨read, hread, hmicros⟩ := readOffset?_renderMinutes hlt false
      have hsame : read = o := eq_of_micros (by rw [hmicros, if_neg Bool.false_ne_true]; omega)
      rw [if_neg hwest, readZone?_plus, hread, hsame, Option.map_some]

theorem stops_render (o : Offset) : Moment.Stops (o.render .letter) := by
  unfold render
  by_cases hzero : o.seconds = 0
  · simp [Moment.Stops, hzero]
  · by_cases hwest : o.micros < 0 <;> simp [Moment.Stops, hzero, hwest]

end Offset

namespace Moment

variable {m : Moment} {o : Offset}

/-- The moment is aware, and its offset a whole number of minutes. -/
def Whole (m : Moment) : Prop := ∃ o, m.offset = some o ∧ o.Whole

/-- Universal time has no minutes. -/
theorem whole_of_utc (h : m.offset = some .utc) : m.Whole := ⟨_, h, 0, rfl⟩

/-- The day of a moment. -/
def date (m : Moment) : Date := Date.ofDays (m.wall / dayMicros)

theorem valid_date (m : Moment) : m.date.Valid := m.valid_reading.date

theorem render_eq (ho : m.offset = some o) : m.render .letter =
    renderDate m.date ++ 'T' :: (renderTime (m.wall % dayMicros) ++ o.render .letter) := by
  rw [render, ho, List.append_assoc, List.cons_append]
  rfl

theorem length_renderDate (d : Date) : (renderDate d).length = 10 := by
  simp only [renderDate, List.length_append, List.length_cons, Digits.length_fixed]

/-- After the ten characters of a date and its mark come the time and the offset. -/
theorem readFull?_append {ds time : List Char} {d : Date}
    (hdate : Date.readCalendar (ds ++ 'T' :: time) = .ok d) (hlength : ds.length = 10) :
    readFull? (ds ++ 'T' :: time) = (readTime? time).bind fun (micros, rest) =>
      (readZone? rest).map fun offset => ⟨d, micros, offset⟩ := by
  have hmark : (ds ++ 'T' :: time)[10]? = some 'T' := by simp [← hlength]
  have htime : (ds ++ 'T' :: time).drop 11 = time := by
    rw [List.drop_append, hlength, List.drop_of_length_le (by omega)]
    rfl
  rw [readFull?, hdate, hmark, htime]
  rfl

/-- The parts of a moment are read back. -/
theorem readFull?_render (ho : m.offset = some o) (hwhole : o.Whole) :
    readFull? (m.render .letter) = some ⟨m.date, m.wall % dayMicros, some o⟩ := by
  have htime := readTime?_renderTime (Nat.mod_lt m.wall (by decide)) o.stops_render
  rw [render_eq ho, readFull?_append (Date.readCalendar_renderDate m.valid_date _) (length_renderDate _),
    htime, Option.bind_some]
  dsimp only
  rw [hwhole.readZone?_render, Option.map_some]

theorem eq_of_wall {a b : Moment} (hwall : a.wall = b.wall) (hoffset : a.offset = b.offset) : a = b := by
  cases a
  cases b
  simp_all

/-- The parts of a moment are placed where it is. -/
theorem place?_parts (ho : m.offset = some o) :
    Parts.place? ⟨m.date, m.wall % dayMicros, some o⟩ = some m := by
  have hyear : m.date.year ≠ 0 := by
    have hfirst := m.valid_date.1.1
    omega
  have hwall : m.date.toDays * dayMicros + m.wall % dayMicros = m.wall := by
    rw [date, Date.toDays_ofDays]
    exact Nat.div_add_mod' ..
  have hlt : m.date.toDays * dayMicros + m.wall % dayMicros < calendarMicros := by
    rw [hwall]
    exact m.wall_lt
  rw [Parts.place?, if_neg hyear, atDate?, dif_pos hlt]
  exact congrArg some (eq_of_wall hwall ho.symm)

end Moment

namespace Timestamp

variable {m : Moment}

/-- A run of digits that a hyphen follows is no number. -/
theorem ofNumericText?_of_hyphen {ds cs : List Char} (hds : ∀ c ∈ ds, c.isDigit = true) (hne : ds ≠ []) :
    ofNumericText? (ds ++ '-' :: cs) = none := by
  have hsign : Digits.splitSign (ds ++ '-' :: cs) = (false, ds ++ '-' :: cs) := by
    cases ds with
    | nil => exact absurd rfl hne
    | cons d ds =>
      have hdigit := hds d List.mem_cons_self
      rw [List.cons_append]
      unfold Digits.splitSign
      split
      · next heq =>
        obtain ⟨rfl, -⟩ := List.cons.inj heq
        cases hdigit
      · next heq =>
        obtain ⟨rfl, -⟩ := List.cons.inj heq
        cases hdigit
      · rfl
  have hrest : (ds ++ '-' :: cs).dropWhile Char.isDigit = '-' :: cs := by
    rw [List.dropWhile_append_of_pos hds]
    rfl
  rw [ofNumericText?, hsign]
  simp [readDecimal?, hrest]

/-- A date with a time is neither a number nor a date alone. -/
theorem bodyText_is_full (m : Moment) :
    ofNumericText? m.bodyText.toList = none ∧ 10 < m.bodyText.length := by
  rw [Moment.bodyText, String.toList_ofList, String.length_ofList]
  constructor
  · have hne : Digits.fixed 4 m.date.year ≠ [] := by
      rw [← List.length_pos_iff, Digits.length_fixed]
      decide
    rw [Moment.render, Moment.renderDate, List.append_assoc, List.append_assoc, List.append_assoc,
      List.cons_append]
    exact ofNumericText?_of_hyphen (fun c hc => Digits.isDigit_of_mem_fixed hc) hne
  · rw [Moment.render, List.length_append, List.length_append, Moment.length_renderDate, List.length_cons]
    omega

/-- A text with all parts of a moment is not read as a number, whatever number it might be. -/
theorem ofText_of_parts {cs : List Char} {p : Moment.Parts} (hfull : Moment.readFull? cs = some p)
    (hoffset : p.offset ≠ none) (hplace : p.place? = some m) : ofText cs = .ok m := by
  have hparts : ofParts p = .ok m := by
    rw [ofParts, if_neg (by simpa using hoffset), hplace]
  rw [ofText, Moment.readParts, hfull]
  generalize ofNumericText? cs = numeric
  exact hparts

/-- The text of a moment is read back. -/
theorem ofText_render (hm : m.Whole) : ofText (m.render .letter) = .ok m := by
  obtain ⟨o, ho, hwhole⟩ := hm
  exact ofText_of_parts (Moment.readFull?_render ho hwhole) (by simp) (Moment.place?_parts ho)

theorem ofJson_bodyText (hm : m.Whole) : ofJson (.str m.bodyText) = .ok m := by
  rw [ofJson, Moment.bodyText, String.toList_ofList, ofText_render hm]
  rfl

end Timestamp
end Worklog
