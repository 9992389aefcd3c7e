/-
**Which texts are timestamps.**

Among the texts in ASCII those are accepted that are written as RFC 3339 has it: a date that the
calendar has, a time of day without leap seconds, at most nine digits behind a point, and an offset.  Of
an offset only its length is looked at, which must be less than a day, so that its minutes may go up to
99.  A line feed at the end is no part of a timestamp.

Main definitions:

* `Ascii` — characters in ASCII;
* `WallTime`, `Zone`, `WrittenTime` — date and time of day, offset, and a whole timestamp, with their
  texts;
* `WallTime.Exists`, `Zone.Proper` — the calendar's rules;
* `Zone.Overfull` — an offset of less than a day with more than 59 minutes;
* `IsRfc3339`, `HasOverfullOffset` — the texts of timestamps, and those with such an offset.

Main results:

* `matchesTemplate_field`, `fieldAt_field` — a field of a template, and its number;
* `WrittenTime.fits_iff` — what has the shape of a timestamp;
* `WrittenTime.Writable.checkDateTimeText_iff` — **a timestamp that exists is accepted**, and no other;
* `accepts_rfc3339`, `accepts_overfull_offset` — which texts are accepted, and one that should not be.
-/
import DesignRegistry.Proofs.Time.Fields
import DesignRegistry.Time.Rfc3339

set_option relaxedAutoImplicit false
set_option autoImplicit false

namespace DesignRegistry

/-! ### Templates -/

/-- Characters in ASCII. -/
def Ascii (s : List Char) : Prop := ∀ c ∈ s, c.toNat < 128

instance (s : List Char) : Decidable (Ascii s) := inferInstanceAs (Decidable (∀ c ∈ s, c.toNat < 128))

theorem isDecimal_of_ascii {c : Char} (h : c.toNat < 128) : isDecimal c = c.isDigit := by
  rw [isDecimal, decimalValue?, if_pos h]
  cases c.isDigit <;> rfl

theorem toNat_of_isDigit {c : Char} (h : c.isDigit = true) : c.toNat < 128 := by
  rw [Char.isDigit, Bool.and_eq_true, decide_eq_true_eq, decide_eq_true_eq] at h
  exact Nat.lt_of_le_of_lt (show c.toNat ≤ 57 from h.2) (by decide)

theorem isDecimal_of_isDigit {c : Char} (h : c.isDigit = true) : isDecimal c = true := by
  rw [isDecimal_of_ascii (toNat_of_isDigit h), h]

theorem ascii_padded {width n : ℕ} : Ascii (padded width n) :=
  fun _ hc => toNat_of_isDigit (isDigit_of_mem_padded hc)

theorem ascii_append {s s' : List Char} (h : Ascii s) (h' : Ascii s') : Ascii (s ++ s') :=
  List.forall_mem_append.2 ⟨h, h'⟩

/-- A field and a mark in front of a text in ASCII. -/
theorem ascii_field {width n : ℕ} {mark : Char} (hmark : mark.toNat < 128) {s : List Char}
    (h : Ascii s) : Ascii (padded width n ++ mark :: s) :=
  ascii_append ascii_padded (List.forall_mem_cons.2 ⟨hmark, h⟩)

theorem ascii_last {width n : ℕ} : Ascii (padded width n ++ []) :=
  ascii_append ascii_padded (List.forall_mem_nil _)

/-- A mark of a template stands for itself. -/
theorem matchesTemplate_mark {mark : Char} (hmark : mark ≠ '0') (template s : List Char) :
    matchesTemplate (mark :: template) (mark :: s) = matchesTemplate template s := by
  rw [matchesTemplate, if_neg hmark, beq_self_eq_true, Bool.true_and]

theorem exists_of_matchesTemplate_mark {mark : Char} (hmark : mark ≠ '0') {template s : List Char}
    (h : matchesTemplate (mark :: template) s = true) :
    ∃ rest, s = mark :: rest ∧ matchesTemplate template rest = true := by
  cases s with
  | nil => exact absurd h (by simp [matchesTemplate])
  | cons c rest =>
      rw [matchesTemplate, if_neg hmark, Bool.and_eq_true, beq_iff_eq] at h
      exact ⟨rest, by rw [h.1], h.2⟩

/-- Zeros of a template stand for as many digits. -/
theorem matchesTemplate_digits {ds : List Char} (hds : ∀ c ∈ ds, c.isDigit = true)
    (template s : List Char) :
    matchesTemplate (List.replicate ds.length '0' ++ template) (ds ++ s) =
      matchesTemplate template s := by
  induction ds with
  | nil => rfl
  | cons c ds ih =>
      obtain ⟨hc, hds⟩ := List.forall_mem_cons.1 hds
      rw [List.length_cons, List.replicate_succ, List.cons_append, List.cons_append, matchesTemplate,
        if_pos rfl, isDecimal_of_isDigit hc, Bool.true_and, ih hds]

theorem exists_of_matchesTemplate_digits {width : ℕ} {template s : List Char} (hs : Ascii s)
    (h : matchesTemplate (List.replicate width '0' ++ template) s = true) :
    ∃ ds rest, s = ds ++ rest ∧ ds.length = width ∧ (∀ c ∈ ds, c.isDigit = true) ∧
      matchesTemplate template rest = true := by
  induction width generalizing s with
  | zero => exact ⟨[], s, rfl, rfl, List.forall_mem_nil _, h⟩
  | succ width ih =>
      rw [List.replicate_succ, List.cons_append] at h
      cases s with
      | nil => exact absurd h (by simp [matchesTemplate])
      | cons c s =>
          obtain ⟨hc, hs⟩ := List.forall_mem_cons.1 hs
          rw [matchesTemplate, if_pos rfl, Bool.and_eq_true, isDecimal_of_ascii hc] at h
          obtain ⟨ds, rest, rfl, rfl, hds, hrest⟩ := ih hs h.2
          exact ⟨c :: ds, rest, rfl, rfl, List.forall_mem_cons.2 ⟨h.1, hds⟩, hrest⟩

section Fields

variable {width n : ℕ} [NeZero width]

/-- Zeros of a template stand for the field of a number. -/
theorem matchesTemplate_field (hn : n < 10 ^ width) (template s : List Char) :
    matchesTemplate (List.replicate width '0' ++ template) (padded width n ++ s) =
      matchesTemplate template s := by
  have hfield : ∀ c ∈ padded width n, c.isDigit = true := fun _ hc => isDigit_of_mem_padded hc
  have hdigits := matchesTemplate_digits hfield template s
  rwa [length_padded hn] at hdigits

theorem exists_of_matchesTemplate_field {template s : List Char} (hs : Ascii s)
    (h : matchesTemplate (List.replicate width '0' ++ template) s = true) :
    ∃ n < 10 ^ width, ∃ rest, Ascii rest ∧ s = padded width n ++ rest ∧
      matchesTemplate template rest = true := by
  obtain ⟨ds, rest, rfl, rfl, hds, hrest⟩ := exists_of_matchesTemplate_digits hs h
  refine ⟨natOfDigits ds, natOfDigits_lt hds, rest, fun c hc => hs c (List.mem_append_right _ hc),
    ?_, hrest⟩
  have hne : ds ≠ [] := List.length_pos_iff.1 (Nat.pos_of_neZero ds.length)
  rw [padded_natOfDigits hne hds]

/-- Zeros and a mark stand for the field of a number and the mark. -/
theorem exists_of_matchesTemplate_marked {mark : Char} (hmark : mark ≠ '0') {template s : List Char}
    (hs : Ascii s)
    (h : matchesTemplate (List.replicate width '0' ++ mark :: template) s = true) :
    ∃ n < 10 ^ width, ∃ rest, Ascii rest ∧ s = padded width n ++ mark :: rest ∧
      matchesTemplate template rest = true := by
  obtain ⟨n, hn, behind, hbehind, rfl, hmarked⟩ := exists_of_matchesTemplate_field hs h
  obtain ⟨rest, rfl, hrest⟩ := exists_of_matchesTemplate_mark hmark hmarked
  exact ⟨n, hn, rest, (List.forall_mem_cons.1 hbehind).2, rfl, hrest⟩

/-- Zeros at the end stand for the field of a number and nothing behind it. -/
theorem exists_of_matchesTemplate_last {s : List Char} (hs : Ascii s)
    (h : matchesTemplate (List.replicate width '0' ++ []) s = true) :
    ∃ n < 10 ^ width, s = padded width n ++ [] := by
  obtain ⟨n, hn, rest, -, rfl, hrest⟩ := exists_of_matchesTemplate_field hs h
  cases rest with
  | nil => exact ⟨n, hn, rfl⟩
  | cons c rest => exact absurd hrest (by simp [matchesTemplate])

/-- The number of a field. -/
theorem fieldAt_field (hn : n < 10 ^ width) (rest : List Char) :
    fieldAt (padded width n ++ rest) 0 width = n := by
  rw [fieldAt, List.drop_zero, List.take_left' (length_padded hn), natOfDigits_padded]

/-- What is behind a field and a mark. -/
theorem fieldAt_behind (hn : n < 10 ^ width) (mark : Char) (rest : List Char) (start width' : ℕ) :
    fieldAt (padded width n ++ mark :: rest) (width + 1 + start) width' = fieldAt rest start width' := by
  have hlength : (padded width n ++ [mark]).length = width + 1 := by
    rw [List.length_append, length_padded hn, List.length_singleton]
  rw [fieldAt, fieldAt, List.append_cons, ← hlength, List.drop_length_add_append]

end Fields

/-! ### Dates and times of day -/

/-- A date and a time of day. -/
structure WallTime where
  year : ℕ
  month : ℕ
  day : ℕ
  hour : ℕ
  minute : ℕ
  second : ℕ

namespace WallTime

/-- The text of a date and a time of day. -/
def text (t : WallTime) : List Char :=
  padded 4 t.year ++ '-' :: (padded 2 t.month ++ '-' :: (padded 2 t.day ++ 'T' ::
    (padded 2 t.hour ++ ':' :: (padded 2 t.minute ++ ':' :: (padded 2 t.second ++ [])))))

/-- Each number has room in its field. -/
structure Writable (t : WallTime) : Prop where
  year : t.year < 10 ^ 4
  month : t.month < 10 ^ 2
  day : t.day < 10 ^ 2
  hour : t.hour < 10 ^ 2
  minute : t.minute < 10 ^ 2
  second : t.second < 10 ^ 2

/-- The calendar has the date, and the day has the time. -/
structure Exists (t : WallTime) : Prop where
  year : 1 ≤ t.year ∧ t.year ≤ 9999
  month : 1 ≤ t.month ∧ t.month ≤ 12
  day : 1 ≤ t.day ∧ t.day ≤ daysInMonth t.year t.month
  hour : t.hour ≤ 23
  minute : t.minute ≤ 59
  second : t.second ≤ 59

variable {t : WallTime}

theorem daysInMonth_le (year month : ℕ) : daysInMonth year month ≤ 31 := by
  rw [daysInMonth]
  split
  · split <;> decide
  · split <;> decide

theorem Exists.writable (h : t.Exists) : t.Writable := by
  obtain ⟨⟨-, hyear⟩, ⟨-, hmonth⟩, ⟨-, hday⟩, hhour, hminute, hsecond⟩ := h
  have hmost := daysInMonth_le t.year t.month
  constructor <;> omega

theorem Writable.length_text (h : t.Writable) : t.text.length = 19 := by
  simp only [text, List.length_append, List.length_cons, length_padded h.year,
    length_padded h.month, length_padded h.day,
    length_padded h.hour, length_padded h.minute,
    length_padded h.second, List.length_nil]

theorem ascii_text (t : WallTime) : Ascii t.text :=
  ascii_field (by decide) <| ascii_field (by decide) <| ascii_field (by decide) <|
    ascii_field (by decide) <| ascii_field (by decide) ascii_last

/-- The template of dates and times of day. -/
theorem template_eq : "0000-00-00T00:00:00".toList =
    List.replicate 4 '0' ++ '-' :: (List.replicate 2 '0' ++ '-' :: (List.replicate 2 '0' ++ 'T' ::
      (List.replicate 2 '0' ++ ':' :: (List.replicate 2 '0' ++ ':' ::
        (List.replicate 2 '0' ++ []))))) := rfl

/-- A date and a time of day are written as the template has it. -/
theorem Writable.matchesTemplate (h : t.Writable) :
    matchesTemplate "0000-00-00T00:00:00".toList t.text = true := by
  rw [template_eq, text, matchesTemplate_field h.year, matchesTemplate_mark (by decide),
    matchesTemplate_field h.month, matchesTemplate_mark (by decide),
    matchesTemplate_field h.day, matchesTemplate_mark (by decide),
    matchesTemplate_field h.hour, matchesTemplate_mark (by decide),
    matchesTemplate_field h.minute, matchesTemplate_mark (by decide),
    matchesTemplate_field h.second]
  rfl

/-- Field by field, what is written as the template has it is a date and a time of day. -/
theorem exists_of_matchesTemplate {s : List Char} (hs : Ascii s)
    (h : DesignRegistry.matchesTemplate "0000-00-00T00:00:00".toList s = true) :
    ∃ t : WallTime, t.Writable ∧ s = t.text := by
  rw [template_eq] at h
  obtain ⟨year, hyear, s₁, hs₁, rfl, h₁⟩ :=
    exists_of_matchesTemplate_marked (by decide) hs h
  obtain ⟨month, hmonth, s₂, hs₂, rfl, h₂⟩ :=
    exists_of_matchesTemplate_marked (by decide) hs₁ h₁
  obtain ⟨day, hday, s₃, hs₃, rfl, h₃⟩ :=
    exists_of_matchesTemplate_marked (by decide) hs₂ h₂
  obtain ⟨hour, hhour, s₄, hs₄, rfl, h₄⟩ :=
    exists_of_matchesTemplate_marked (by decide) hs₃ h₃
  obtain ⟨minute, hminute, s₅, hs₅, rfl, h₅⟩ :=
    exists_of_matchesTemplate_marked (by decide) hs₄ h₄
  obtain ⟨second, hsecond, rfl⟩ := exists_of_matchesTemplate_last hs₅ h₅
  exact ⟨⟨year, month, day, hour, minute, second⟩,
    ⟨hyear, hmonth, hday, hhour, hminute, hsecond⟩, rfl⟩

/-- The numbers that are read are those that were written. -/
theorem Writable.fields (h : t.Writable) :
    fieldAt t.text 0 4 = t.year ∧ fieldAt t.text 5 2 = t.month ∧ fieldAt t.text 8 2 = t.day ∧
      fieldAt t.text 11 2 = t.hour ∧ fieldAt t.text 14 2 = t.minute ∧
        fieldAt t.text 17 2 = t.second := by
  have hyear := fieldAt_behind h.year '-'
  have hmonth := fieldAt_behind h.month '-'
  have hday := fieldAt_behind h.day 'T'
  have hhour := fieldAt_behind h.hour ':'
  have hminute := fieldAt_behind h.minute ':'
  refine ⟨fieldAt_field h.year _, ?_, ?_, ?_, ?_, ?_⟩
  · exact (hyear _ 0 2).trans (fieldAt_field h.month _)
  · exact (hyear _ 3 2).trans ((hmonth _ 0 2).trans (fieldAt_field h.day _))
  · exact (hyear _ 6 2).trans ((hmonth _ 3 2).trans ((hday _ 0 2).trans
      (fieldAt_field h.hour _)))
  · exact (hyear _ 9 2).trans ((hmonth _ 6 2).trans ((hday _ 3 2).trans ((hhour _ 0 2).trans
      (fieldAt_field h.minute _))))
  · exact (hyear _ 12 2).trans ((hmonth _ 9 2).trans ((hday _ 6 2).trans ((hhour _ 3 2).trans
      ((hminute _ 0 2).trans (fieldAt_field h.second _)))))

end WallTime

/-! ### Offsets -/

/-- Universal time, or an offset ahead of it or behind it. -/
inductive Zone where
  | utc
  | offset (ahead : Bool) (hours minutes : ℕ)

namespace Zone

/-- The text of an offset. -/
def text : Zone → List Char
  | .utc => ['Z']
  | .offset ahead hours minutes =>
      (if ahead then '+' else '-') :: (padded 2 hours ++ ':' :: (padded 2 minutes ++ []))

/-- The offset in minutes. -/
def minutes : Zone → ℤ
  | .utc => 0
  | .offset ahead hours minutes =>
      if ahead then (hours * 60 + minutes : ℕ) else -(hours * 60 + minutes : ℕ)

/-- Each number has room in its field. -/
def Writable : Zone → Prop
  | .utc => True
  | .offset _ hours minutes => hours < 10 ^ 2 ∧ minutes < 10 ^ 2

/-- The hours and the minutes of a time of day. -/
def Proper : Zone → Prop
  | .utc => True
  | .offset _ hours minutes => hours ≤ 23 ∧ minutes ≤ 59

/-- Less than a day, with more minutes than an hour has. -/
def Overfull : Zone → Prop
  | .utc => False
  | .offset _ hours minutes => 59 < minutes ∧ minutes ≤ 99 ∧ hours * 60 + minutes < 1440

variable {z : Zone}

/-- An offset is less than a day if its numbers are those of a time of day, or if it is overfull. -/
theorem lt_day_iff (h : z.Writable) : z.minutes.natAbs < 1440 ↔ z.Proper ∨ z.Overfull := by
  cases z with
  | utc => simp [minutes, Proper]
  | offset ahead hours minutes =>
      obtain ⟨hhours, hminutes⟩ := h
      have hsize : (Zone.offset ahead hours minutes).minutes.natAbs = hours * 60 + minutes := by
        cases ahead
        · exact Int.natAbs_neg _
        · rfl
      rw [hsize, Proper, Overfull]
      omega

theorem Proper.writable (h : z.Proper) : z.Writable := by
  cases z with
  | utc => trivial
  | offset ahead hours minutes =>
      obtain ⟨hhours, hminutes⟩ := h
      constructor <;> omega

/-- The template of an offset, behind its sign. -/
theorem offset_template (sign : Char) : sign :: "00:00".toList =
    sign :: (List.replicate 2 '0' ++ ':' :: (List.replicate 2 '0' ++ [])) := rfl

theorem matchesTemplate_offset {sign : Char} (hsign : sign ≠ '0') {hours minutes : ℕ}
    (hhours : hours < 10 ^ 2) (hminutes : minutes < 10 ^ 2) :
    matchesTemplate (sign :: "00:00".toList)
      (sign :: (padded 2 hours ++ ':' :: (padded 2 minutes ++ []))) = true := by
  rw [offset_template, matchesTemplate_mark hsign, matchesTemplate_field hhours,
    matchesTemplate_mark (by decide), matchesTemplate_field hminutes]
  rfl

theorem exists_of_matchesTemplate_offset {sign : Char} (hsign : sign ≠ '0') {s : List Char}
    (hs : Ascii s) (h : matchesTemplate (sign :: "00:00".toList) s = true) :
    ∃ hours < 10 ^ 2, ∃ minutes < 10 ^ 2,
      s = sign :: (padded 2 hours ++ ':' :: (padded 2 minutes ++ [])) := by
  rw [offset_template] at h
  obtain ⟨s₁, rfl, h₁⟩ := exists_of_matchesTemplate_mark hsign h
  obtain ⟨hours, hhours, s₂, hs₂, rfl, h₂⟩ :=
    exists_of_matchesTemplate_marked (by decide) (List.forall_mem_cons.1 hs).2 h₁
  obtain ⟨minutes, hminutes, rfl⟩ := exists_of_matchesTemplate_last hs₂ h₂
  exact ⟨hours, hhours, minutes, hminutes, rfl⟩

/-- An offset is `Z`, or a sign with hours and minutes. -/
theorem zoneFits_iff {s : List Char} (hs : Ascii s) :
    DateTimeParts.zoneFits s = true ↔ ∃ z : Zone, z.Writable ∧ s = z.text := by
  rw [DateTimeParts.zoneFits, Bool.or_eq_true, Bool.or_eq_true, beq_iff_eq]
  constructor
  · rintro ((rfl | hahead) | hbehind)
    · exact ⟨.utc, trivial, rfl⟩
    · obtain ⟨hours, hhours, minutes, hminutes, rfl⟩ :=
        exists_of_matchesTemplate_offset (by decide) hs hahead
      exact ⟨.offset true hours minutes, ⟨hhours, hminutes⟩, rfl⟩
    · obtain ⟨hours, hhours, minutes, hminutes, rfl⟩ :=
        exists_of_matchesTemplate_offset (by decide) hs hbehind
      exact ⟨.offset false hours minutes, ⟨hhours, hminutes⟩, rfl⟩
  · rintro ⟨_ | ⟨_ | _, hours, minutes⟩, hz, rfl⟩
    · exact .inl (.inl rfl)
    · exact .inr (matchesTemplate_offset (by decide) hz.1 hz.2)
    · exact .inl (.inr (matchesTemplate_offset (by decide) hz.1 hz.2))

/-- The numbers of an offset that are read are those that were written. -/
theorem fields_offset {ahead : Bool} {hours minutes : ℕ} (h : (offset ahead hours minutes).Writable) :
    fieldAt (offset ahead hours minutes).text 1 2 = hours ∧
      fieldAt (offset ahead hours minutes).text 4 2 = minutes :=
  ⟨fieldAt_field h.1 _,
    (fieldAt_behind h.1 ':' _ 0 2).trans (fieldAt_field h.2 _)⟩

theorem zoneMinutes_text (h : z.Writable) :
    (if z.text = ['Z'] then 0 else zoneMinutes z.text) = z.minutes := by
  cases z with
  | utc => rfl
  | offset ahead hours minutes =>
      obtain ⟨hhours, hminutes⟩ := fields_offset h
      rw [zoneMinutes, hhours, hminutes]
      cases ahead <;> simp [text, Zone.minutes]

theorem ascii_text (z : Zone) : Ascii z.text := by
  rcases z with _ | ⟨_ | _, hours, minutes⟩
  · exact List.forall_mem_singleton.2 (by decide)
  · exact List.forall_mem_cons.2 ⟨by decide, ascii_field (by decide) ascii_last⟩
  · exact List.forall_mem_cons.2 ⟨by decide, ascii_field (by decide) ascii_last⟩

/-- An offset begins with neither a digit nor a point. -/
theorem exists_text (z : Zone) :
    ∃ c rest, z.text = c :: rest ∧ c ≠ '.' ∧ isDecimal c = false := by
  rcases z with _ | ⟨_ | _, hours, minutes⟩
  · exact ⟨'Z', [], rfl, by decide, isDecimal_of_ascii (by decide)⟩
  · exact ⟨'-', _, rfl, by decide, isDecimal_of_ascii (by decide)⟩
  · exact ⟨'+', _, rfl, by decide, isDecimal_of_ascii (by decide)⟩

end Zone

/-! ### Timestamps -/

/-- A timestamp as it is written: the digits of the fraction are kept, since there may be more of them
than count. -/
structure WrittenTime where
  wall : WallTime
  fraction : List Char
  zone : Zone

namespace WrittenTime

/-- The text of the digits of a fraction; none has no point. -/
def fractionText : List Char → List Char
  | [] => []
  | c :: ds => '.' :: c :: ds

/-- The text of a timestamp. -/
def text (t : WrittenTime) : List Char := t.wall.text ++ (fractionText t.fraction ++ t.zone.text)

/-- Each number has room in its field, and the fraction at most nine digits. -/
structure Writable (t : WrittenTime) : Prop where
  wall : t.wall.Writable
  digits : ∀ c ∈ t.fraction, c.isDigit = true
  most : t.fraction.length ≤ 9
  zone : t.zone.Writable

variable {t : WrittenTime}

/-- A text with a point behind the seconds. -/
theorem parts_of_point {s rest : List Char} (h : s.drop 19 = '.' :: rest) :
    DateTimeParts.of s = ⟨s.take 19, rest.takeWhile isDecimal, rest.dropWhile isDecimal⟩ := by
  simp only [DateTimeParts.of, h]

/-- A text without. -/
theorem parts_of_no_point {s : List Char} (h : (s.drop 19).head? ≠ some '.') :
    DateTimeParts.of s = ⟨s.take 19, [], s.drop 19⟩ := by
  rw [DateTimeParts.of]
  split
  · rename_i heq
    exact absurd (congrArg List.head? heq) h
  · rfl

theorem Writable.take_text (h : t.Writable) : t.text.take 19 = t.wall.text :=
  List.take_left' h.wall.length_text

theorem Writable.drop_text (h : t.Writable) :
    t.text.drop 19 = fractionText t.fraction ++ t.zone.text :=
  List.drop_left' h.wall.length_text

/-- A point stands behind the seconds if there is a fraction. -/
theorem Writable.head?_drop_text (h : t.Writable) :
    (t.text.drop 19).head? = some '.' ↔ t.fraction ≠ [] := by
  obtain ⟨c, rest, hzone, hpoint, -⟩ := t.zone.exists_text
  rw [h.drop_text]
  cases t.fraction with
  | nil => simp [fractionText, hzone, hpoint]
  | cons d ds => simp [fractionText]

/-- A written timestamp is cut where its parts meet. -/
theorem Writable.parts (h : t.Writable) :
    DateTimeParts.of t.text = ⟨t.wall.text, t.fraction, t.zone.text⟩ := by
  obtain ⟨c, rest, hzone, -, hdigit⟩ := t.zone.exists_text
  have hdigits : ∀ d ∈ t.fraction, isDecimal d = true :=
    fun d hd => isDecimal_of_isDigit (h.digits d hd)
  by_cases hfraction : t.fraction = []
  · rw [parts_of_no_point (fun hpoint => h.head?_drop_text.1 hpoint hfraction), h.take_text,
      h.drop_text, hfraction, fractionText, List.nil_append]
  · obtain ⟨d, ds, hcons⟩ := List.exists_cons_of_ne_nil hfraction
    have hpoint : t.text.drop 19 = '.' :: (t.fraction ++ t.zone.text) := by
      rw [h.drop_text, hcons, fractionText, List.cons_append]
    rw [parts_of_point hpoint, h.take_text, List.takeWhile_append_of_pos hdigits,
      List.dropWhile_append_of_pos hdigits, hzone, List.takeWhile_cons_of_neg (by simp [hdigit]),
      List.dropWhile_cons_of_neg (by simp [hdigit]), List.append_nil]

theorem Writable.fits (h : t.Writable) : DateTimeParts.fits t.text = true := by
  have hzone := (Zone.zoneFits_iff t.zone.ascii_text).2 ⟨t.zone, h.zone, rfl⟩
  rw [DateTimeParts.fits, h.parts, h.wall.matchesTemplate, hzone]
  split
  · rename_i hpoint
    have hleast := List.length_pos_iff.2 (h.head?_drop_text.1 hpoint)
    have hmost := h.most
    rw [Bool.and_self, Bool.true_and, Bool.and_eq_true, decide_eq_true_eq, decide_eq_true_eq]
    exact ⟨hleast, hmost⟩
  · rfl

/-- What has the shape of a timestamp is one, whether it exists or not. -/
theorem fits_iff {s : List Char} (hs : Ascii s) :
    DateTimeParts.fits s = true ↔ ∃ t : WrittenTime, t.Writable ∧ s = t.text := by
  refine ⟨fun h => ?_, fun ⟨t, ht, heq⟩ => heq ▸ ht.fits⟩
  have hfront : Ascii (s.take 19) := fun c hc => hs c (List.mem_of_mem_take hc)
  have hback : Ascii (s.drop 19) := fun c hc => hs c (List.mem_of_mem_drop hc)
  rw [DateTimeParts.fits, Bool.and_eq_true, Bool.and_eq_true] at h
  obtain ⟨⟨hbase, hzone⟩, hfraction⟩ := h
  by_cases hpoint : (s.drop 19).head? = some '.'
  · obtain ⟨rest, hrest⟩ := List.head?_eq_some_iff.1 hpoint
    rw [hrest] at hback
    have hascii := (List.forall_mem_cons.1 hback).2
    rw [parts_of_point hrest] at hbase hzone hfraction
    obtain ⟨wall, hwall, hfrontText⟩ := WallTime.exists_of_matchesTemplate hfront hbase
    obtain ⟨zone, hwritable, hzoneText⟩ :=
      (Zone.zoneFits_iff fun c hc => hascii c ((List.dropWhile_subset _) hc)).1 hzone
    rw [if_pos hpoint, Bool.and_eq_true, decide_eq_true_eq, decide_eq_true_eq] at hfraction
    obtain ⟨d, ds, hcons⟩ : ∃ d ds, rest.takeWhile isDecimal = d :: ds :=
      List.exists_cons_of_length_pos hfraction.1
    refine ⟨⟨wall, rest.takeWhile isDecimal, zone⟩, ⟨hwall, fun c hc => ?_, hfraction.2, hwritable⟩, ?_⟩
    · rw [← isDecimal_of_ascii (hascii c ((List.takeWhile_subset _) hc))]
      exact List.all_eq_true.1 List.all_takeWhile c hc
    · rw [← List.take_append_drop 19 s, hrest, hfrontText, text]
      have hbehind : fractionText (rest.takeWhile isDecimal) = '.' :: rest.takeWhile isDecimal := by
        rw [hcons, fractionText]
      rw [hbehind, ← hzoneText, List.cons_append, List.takeWhile_append_dropWhile]
  · rw [parts_of_no_point hpoint] at hbase hzone
    obtain ⟨wall, hwall, hfrontText⟩ := WallTime.exists_of_matchesTemplate hfront hbase
    obtain ⟨zone, hwritable, hzoneText⟩ := (Zone.zoneFits_iff hback).1 hzone
    refine ⟨⟨wall, [], zone⟩, ⟨hwall, List.forall_mem_nil _, Nat.zero_le 9, hwritable⟩, ?_⟩
    rw [← List.take_append_drop 19 s, hfrontText, hzoneText]
    rfl

/-! ### Acceptance -/

/-- A check that is passed, and what is checked behind it. -/
theorem refused_else_iff {ε : Type} {p : Prop} [Decidable p] (problem : ε) (x : Except ε Unit) :
    (if p then .error problem else x) = .ok () ↔ ¬p ∧ x = .ok () := by
  by_cases hp : p <;> simp [hp]

/-- Date, time of day and offset exist. -/
theorem Writable.checkCalendar_iff (h : t.Writable) :
    checkCalendar ⟨t.wall.text, t.fraction, t.zone.text⟩ = .ok () ↔
      t.wall.Exists ∧ t.zone.minutes.natAbs < 1440 := by
  obtain ⟨hyear, hmonth, hday, hhour, hminute, hsecond⟩ := h.wall.fields
  have hroom := h.wall.year
  rw [checkCalendar]
  simp only [refused_else_iff, hyear, hmonth, hday, hhour, hminute, hsecond,
    Zone.zoneMinutes_text h.zone, and_true]
  constructor
  · rintro ⟨hoffset, hy, hmo, hd, hh, hmi, hse⟩
    exact ⟨⟨by omega, by omega, by omega, by omega, by omega, by omega⟩, by omega⟩
  · rintro ⟨⟨hy, hmo, hd, hh, hmi, hse⟩, hoffset⟩
    exact ⟨by omega, by omega, by omega, by omega, by omega, by omega, by omega⟩

/-- In a timestamp all digits are plain ones. -/
theorem Writable.hasPlainDigits (h : t.Writable) :
    DesignRegistry.hasPlainDigits ⟨t.wall.text, t.fraction, t.zone.text⟩ = true := by
  have hfraction : Ascii (t.fraction.take 6) :=
    fun c hc => toNat_of_isDigit (h.digits c (List.mem_of_mem_take hc))
  rw [DesignRegistry.hasPlainDigits, List.all_eq_true]
  exact fun c hc => decide_eq_true
    (ascii_append (ascii_append t.wall.ascii_text hfraction) t.zone.ascii_text c hc)

/-- **A timestamp that exists is accepted**, and no other is. -/
theorem Writable.checkDateTimeText_iff (h : t.Writable) {s : String} (hs : s.toList = t.text) :
    checkDateTimeText s = .ok () ↔ t.wall.Exists ∧ t.zone.minutes.natAbs < 1440 := by
  have hne : t.text.isEmpty = false := by
    rw [List.isEmpty_eq_false_iff, ← List.length_pos_iff, text, List.length_append, h.wall.length_text]
    omega
  simp only [checkDateTimeText, hs, hne, h.fits, h.parts, h.hasPlainDigits, if_true,
    Bool.false_eq_true, if_false]
  exact h.checkCalendar_iff

end WrittenTime

/-- What is accepted has the shape of a timestamp. -/
theorem fits_of_checkDateTimeText {s : String} (h : checkDateTimeText s = .ok ()) :
    DateTimeParts.fits s.toList = true := by
  by_contra hfits
  rw [checkDateTimeText, if_neg hfits] at h
  repeat' split at h
  all_goals exact nomatch h

/-- Texts of RFC 3339: the calendar has the date, the day has the time, and so has the offset. -/
def IsRfc3339 (s : String) : Prop :=
  ∃ t : WrittenTime, t.Writable ∧ t.wall.Exists ∧ t.zone.Proper ∧ s.toList = t.text

/-- Texts that would be of RFC 3339 if an hour of an offset had more than sixty minutes. -/
def HasOverfullOffset (s : String) : Prop :=
  ∃ t : WrittenTime, t.Writable ∧ t.wall.Exists ∧ t.zone.Overfull ∧ s.toList = t.text

/-- **The texts in ASCII that are accepted** are those of RFC 3339, and those besides whose offset is
less than a day, but has too many minutes.  For every other text there is a problem. -/
theorem accepts_rfc3339 {s : String} (hs : Ascii s.toList) :
    (checkDateTime (.str s) = .ok () ↔ IsRfc3339 s ∨ HasOverfullOffset s) ∧
      (checkDateTime (.str s) = .ok () ∨ ∃ problem, checkDateTime (.str s) = .error problem) := by
  refine ⟨⟨fun h => ?_, ?_⟩, ?_⟩
  · obtain ⟨t, ht, htext⟩ := (WrittenTime.fits_iff hs).1 (fits_of_checkDateTimeText h)
    obtain ⟨hexists, hoffset⟩ := (ht.checkDateTimeText_iff htext).1 h
    rcases (Zone.lt_day_iff ht.zone).1 hoffset with hproper | hoverfull
    · exact .inl ⟨t, ht, hexists, hproper, htext⟩
    · exact .inr ⟨t, ht, hexists, hoverfull, htext⟩
  · rintro (⟨t, ht, hexists, hproper, htext⟩ | ⟨t, ht, hexists, hoverfull, htext⟩)
    · exact (ht.checkDateTimeText_iff htext).2
        ⟨hexists, (Zone.lt_day_iff ht.zone).2 (.inl hproper)⟩
    · exact (ht.checkDateTimeText_iff htext).2
        ⟨hexists, (Zone.lt_day_iff ht.zone).2 (.inr hoverfull)⟩
  · cases checkDateTime (.str s) with
    | ok _ => exact .inl rfl
    | error problem => exact .inr ⟨problem, rfl⟩

/-- A leap day, nine digits of a fraction and the greatest offset. -/
theorem accepts_rfc3339_leap_day :
    Ascii "2024-02-29T12:30:45.123456789+23:59".toList ∧
      checkDateTime (.str "2024-02-29T12:30:45.123456789+23:59") = .ok () := by
  have hascii : Ascii "2024-02-29T12:30:45.123456789+23:59".toList := by decide
  refine ⟨hascii, (accepts_rfc3339 hascii).1.2 (.inl ⟨⟨⟨2024, 2, 29, 12, 30, 45⟩,
    "123456789".toList, .offset true 23 59⟩, ⟨?_, ?_, ?_, ?_⟩, ?_, ?_, ?_⟩)⟩
  · exact ⟨by decide, by decide, by decide, by decide, by decide, by decide⟩
  · decide
  · decide
  · exact ⟨by decide, by decide⟩
  · exact ⟨by decide, by decide, by decide, by decide, by decide, by decide⟩
  · exact ⟨by decide, by decide⟩
  · decide

/-- An offset of sixty minutes is accepted as one of an hour, which RFC 3339 does not have. -/
theorem accepts_overfull_offset :
    checkDateTime (.str "2024-01-01T00:00:00+00:60") = .ok () ∧
      ¬IsRfc3339 "2024-01-01T00:00:00+00:60" := by
  refine ⟨by decide, ?_⟩
  rintro ⟨t, ht, -, hproper, htext⟩
  have hparts := ht.parts
  rw [← htext] at hparts
  have hzone : t.zone.text = "+00:60".toList := by
    have hwritten := congrArg DateTimeParts.zone hparts
    exact hwritten.symm.trans (by decide)
  cases h : t.zone with
  | utc =>
      rw [h] at hzone
      exact absurd hzone (by decide)
  | offset ahead hours minutes =>
      rw [h] at hzone hproper
      have hminutes := (Zone.fields_offset hproper.writable).2
      rw [hzone] at hminutes
      have hsixty : fieldAt "+00:60".toList 4 2 = 60 := by decide
      have hmost : minutes ≤ 59 := hproper.2
      omega

end DesignRegistry
