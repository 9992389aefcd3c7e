/-
**Timestamps are in the order of time.**

The fields of a timestamp have one width each, and go from years to milliseconds.  So timestamps are in
the order of dates and times of day, which is that of milliseconds, and this stays so if colons and points
become dashes, and with one front before them.

Main definitions:

* `Moment.Dated` — the moments from 1970 to the end of the year 9999;
* `Moment.marked` — the text of a moment with given marks in the time of day;
* `Moment.wall` — the date and the time of day of a moment.

Main results:

* `Moment.timestampChars_eq`, `Moment.toList_stamp` — timestamps and stamps differ in their marks alone;
* `Moment.marked_lt` — **later milliseconds have later texts**;
* `timestamps_in_order` — timestamps and names of snapshots are in the order of time.
-/
import DesignRegistry.Proofs.Time.Calendar
import DesignRegistry.Proofs.Time.Rfc3339
import DesignRegistry.Proofs.Storage.SnapshotName

set_option relaxedAutoImplicit false
set_option autoImplicit false

namespace DesignRegistry

namespace Moment

/-- Moments from the start of 1970 to the end of the year 9999. -/
structure Dated (t : Moment) : Prop where
  start : 0 ≤ t.micros
  stop : t.micros < 253402300800000000

/-- Date and time of day. -/
def wall (t : Moment) : WallTime where
  year := t.date.year.toNat
  month := t.date.month
  day := t.date.day
  hour := t.millisOfDay / 1000 / 3600
  minute := t.millisOfDay / 1000 / 60 % 60
  second := t.millisOfDay / 1000 % 60

/-- The text of a moment with given marks in the time of day. -/
def marked (colon point : Char) (t : Moment) : List Char :=
  padded 4 t.wall.year ++ '-' :: (padded 2 t.wall.month ++ '-' :: (padded 2 t.wall.day ++ 'T' ::
    (padded 2 t.wall.hour ++ colon :: (padded 2 t.wall.minute ++ colon :: (padded 2 t.wall.second ++
      point :: (padded 3 (t.millisOfDay % 1000) ++ ['Z']))))))

/-- A timestamp has colons and a point. -/
theorem timestampChars_eq (t : Moment) : t.timestampChars = t.marked ':' '.' := by
  simp only [timestampChars, secondsChars, marked, wall, List.append_assoc, List.cons_append,
    List.nil_append]

/-- A stamp has dashes. -/
theorem toList_stamp (t : Moment) : (filenameStamp t.timestamp).toList = t.marked '-' '-' := by
  have hfield (width n : ℕ) :
      (padded width n).map (fun c => if c = ':' ∨ c = '.' then '-' else c) = padded width n := by
    refine (List.map_congr_left fun c hc => if_neg ?_).trans (List.map_id _)
    have hdigit := isDigit_of_mem_padded hc
    rintro (rfl | rfl) <;> exact absurd hdigit (by decide)
  rw [filenameStamp, String.toList_ofList, timestamp, String.toList_ofList, timestampChars_eq]
  simp only [marked, List.map_append, List.map_cons, List.map_nil, hfield]
  rfl

variable {t u : Moment}

/-- A moment is cut into days and milliseconds. -/
theorem Dated.cut (h : t.Dated) : ∃ day rest : ℕ, day < 2932897 ∧ rest < 86400000 ∧
    t.millis = day * 86400000 + rest ∧ t.date = .ofDays day ∧ t.millisOfDay = rest := by
  obtain ⟨hstart, hstop⟩ := h
  have hmillis : t.millis = t.micros / 1000 := Int.fdiv_eq_ediv_of_nonneg _ (by decide)
  have hday : Int.fdiv t.millis 86400000 = t.millis / 86400000 := Int.fdiv_eq_ediv_of_nonneg _ (by decide)
  have hrest : Int.fmod t.millis 86400000 = t.millis % 86400000 := Int.fmod_eq_emod_of_nonneg _ (by decide)
  refine ⟨(t.millis / 86400000).toNat, (t.millis % 86400000).toNat, by omega, by omega, by omega, ?_, ?_⟩
  · rw [date, hday, Int.toNat_of_nonneg (by omega)]
  · rw [millisOfDay, hrest]

/-- The calendar has the date, and the day has the time. -/
theorem Dated.exists_wall (h : t.Dated) : t.wall.Exists := by
  obtain ⟨day, rest, hday, hrest, -, hdate, hmillis⟩ := h.cut
  obtain ⟨hfirst, hlast⟩ := CivilDate.year_ofDays hday
  obtain ⟨hmonth, hdayOf⟩ := CivilDate.exists_ofDays day
  rw [← hdate] at hfirst hlast hmonth hdayOf
  exact ⟨by simp only [wall]; omega, hmonth, hdayOf, by simp only [wall]; omega,
    by simp only [wall]; omega, by simp only [wall]; omega⟩

/-- Of two times of one day the later one has the later hour, minute, second or millisecond. -/
theorem time_later {a b : ℕ} (h : a < b) :
    a / 1000 / 3600 < b / 1000 / 3600 ∨ a / 1000 / 3600 = b / 1000 / 3600 ∧
      (a / 1000 / 60 % 60 < b / 1000 / 60 % 60 ∨ a / 1000 / 60 % 60 = b / 1000 / 60 % 60 ∧
        (a / 1000 % 60 < b / 1000 % 60 ∨ a / 1000 % 60 = b / 1000 % 60 ∧ a % 1000 < b % 1000)) := by
  omega

/-- A later date decides, and a later time of one day. -/
theorem marked_lt_of_fields (colon point : Char) (ht : t.wall.Writable) (hu : u.wall.Writable)
    (h : t.date.Before u.date ∧ 0 ≤ t.date.year ∨
      t.date = u.date ∧ t.millisOfDay < u.millisOfDay) : t.marked colon point < u.marked colon point := by
  rcases h with ⟨hbefore, hyear⟩ | ⟨hdate, htime⟩
  · refine marked_field_lt ht.year hu.year ?_
    rcases hbefore with hlt | ⟨hsame, hmonth⟩
    · exact .inl (by simp only [wall]; omega)
    · refine .inr ⟨congrArg Int.toNat hsame, marked_field_lt ht.month hu.month ?_⟩
      exact hmonth.imp_right fun ⟨hm, hd⟩ =>
        ⟨hm, marked_field_lt ht.day hu.day (.inl hd)⟩
  · have hthousand (n : ℕ) : n % 1000 < 10 ^ 3 := Nat.mod_lt _ (by decide)
    refine marked_field_lt ht.year hu.year (.inr ⟨by simp only [wall, hdate], ?_⟩)
    refine marked_field_lt ht.month hu.month (.inr ⟨by simp only [wall, hdate], ?_⟩)
    refine marked_field_lt ht.day hu.day (.inr ⟨by simp only [wall, hdate], ?_⟩)
    refine marked_field_lt ht.hour hu.hour ((time_later htime).imp_right ?_)
    refine And.imp_right fun hminute => marked_field_lt ht.minute hu.minute ?_
    refine hminute.imp_right (And.imp_right fun hsecond => ?_)
    refine marked_field_lt ht.second hu.second (hsecond.imp_right (And.imp_right ?_))
    exact fun hmillis => (padded_append_lt_iff (hthousand _) (hthousand _) _ _).2 (.inl hmillis)

/-- **Later milliseconds have later texts**, whatever the marks are. -/
theorem marked_lt (colon point : Char) (ht : t.Dated) (hu : u.Dated) (h : t.millis < u.millis) :
    t.marked colon point < u.marked colon point := by
  obtain ⟨day, rest, hday, hrest, hmillis, hdate, htime⟩ := ht.cut
  obtain ⟨day', rest', -, hrest', hmillis', hdate', htime'⟩ := hu.cut
  refine marked_lt_of_fields _ _ ht.exists_wall.writable hu.exists_wall.writable ?_
  rw [hdate, hdate', htime, htime']
  rcases lt_trichotomy day day' with hlt | rfl | hgt
  · have hyear := (CivilDate.year_ofDays hday).1
    exact .inl ⟨CivilDate.before_ofDays hlt, by omega⟩
  · exact .inr ⟨rfl, by omega⟩
  · omega

/-- One millisecond has one text. -/
theorem marked_congr (colon point : Char) (h : t.millis = u.millis) :
    t.marked colon point = u.marked colon point := by
  simp only [marked, wall, date, millisOfDay, h]

/-- Texts with the same marks have one length. -/
theorem Dated.length_marked (colon point : Char) (h : t.Dated) : (t.marked colon point).length = 24 := by
  have hw := h.exists_wall.writable
  have hmillis : t.millisOfDay % 1000 < 10 ^ 3 := Nat.mod_lt _ (by decide)
  simp only [marked, List.length_append, List.length_cons, List.length_nil,
    length_padded hw.year, length_padded hw.month,
    length_padded hw.day, length_padded hw.hour,
    length_padded hw.minute, length_padded hw.second,
    length_padded hmillis]

/-- In a text with dashes are dashes, digits and two letters. -/
theorem mem_marked {c : Char} (h : c ∈ t.marked '-' '-') :
    c = '-' ∨ c = 'T' ∨ c = 'Z' ∨ c.isDigit = true := by
  have hfield (width n : ℕ) :
      ∀ c ∈ padded width n, c = '-' ∨ c = 'T' ∨ c = 'Z' ∨ c.isDigit = true :=
    fun c hc => .inr (.inr (.inr (isDigit_of_mem_padded hc)))
  revert c
  rw [marked]
  repeat rw [List.forall_mem_append, List.forall_mem_cons]
  exact ⟨hfield 4 _, .inl rfl, hfield 2 _, .inl rfl, hfield 2 _, .inr (.inl rfl), hfield 2 _,
    .inl rfl, hfield 2 _, .inl rfl, hfield 2 _, .inl rfl, hfield 3 _, .inr (.inr (.inl rfl)),
    List.forall_mem_nil _⟩

/-- The text of a moment as a timestamp with three digits of a fraction. -/
def written (t : Moment) : WrittenTime := ⟨t.wall, padded 3 (t.millisOfDay % 1000), .utc⟩

theorem timestampChars_eq_text (t : Moment) : t.timestampChars = t.written.text := by
  obtain ⟨c, cs, hfraction⟩ := List.exists_cons_of_ne_nil (padded_ne_nil 3 (t.millisOfDay % 1000))
  simp only [timestampChars_eq, marked, WrittenTime.text, written, WallTime.text, hfraction,
    WrittenTime.fractionText, Zone.text, List.append_assoc, List.cons_append, List.nil_append]

/-- **Timestamps are accepted as such.** -/
theorem Dated.checkDateTime (h : t.Dated) :
    DesignRegistry.checkDateTime (.str t.timestamp) = .ok () := by
  have hmillis : t.millisOfDay % 1000 < 10 ^ 3 := Nat.mod_lt _ (by decide)
  have hwritable : t.written.Writable :=
    ⟨h.exists_wall.writable, fun _ hc => isDigit_of_mem_padded hc,
      (length_padded hmillis).trans_le (by decide), trivial⟩
  have htext : t.timestamp.toList = t.written.text := by
    rw [timestamp, String.toList_ofList, timestampChars_eq_text]
  exact (hwritable.checkDateTimeText_iff htext).2 ⟨h.exists_wall, show (0 : ℤ).natAbs < 1440 by decide⟩

/-- What grows with milliseconds is in their order, and the same only within a millisecond. -/
theorem in_order {f : Moment → String}
    (hlt : ∀ {t u : Moment}, t.Dated → u.Dated → t.millis < u.millis → f t < f u)
    (heq : ∀ {t u : Moment}, t.millis = u.millis → f t = f u) (ht : t.Dated) (hu : u.Dated) :
    (f t < f u ↔ t.millis < u.millis) ∧ (f t = f u ↔ t.millis = u.millis) := by
  rcases lt_trichotomy t.millis u.millis with h | h | h
  · have hless := hlt ht hu h
    exact ⟨iff_of_true hless h, iff_of_false (ne_of_lt hless) (ne_of_lt h)⟩
  · have hsame := heq h
    exact ⟨iff_of_false (fun hless => ne_of_lt hless hsame) (fun hless => ne_of_lt hless h),
      iff_of_true hsame h⟩
  · have hless := hlt hu ht h
    exact ⟨iff_of_false (lt_asymm hless) (lt_asymm h), iff_of_false (ne_of_gt hless) (ne_of_gt h)⟩

theorem timestamp_lt (ht : t.Dated) (hu : u.Dated) (h : t.millis < u.millis) :
    t.timestamp < u.timestamp := by
  rw [String.lt_iff_toList_lt, timestamp, timestamp, String.toList_ofList, String.toList_ofList,
    timestampChars_eq, timestampChars_eq]
  exact marked_lt _ _ ht hu h

theorem timestamp_congr (h : t.millis = u.millis) : t.timestamp = u.timestamp := by
  rw [timestamp, timestamp, timestampChars_eq, timestampChars_eq, marked_congr _ _ h]

/-- Names of snapshots differ in their stamps alone. -/
theorem snapshotName_lt (front : String) (ht : t.Dated) (hu : u.Dated) (h : t.millis < u.millis) :
    snapshotName front t.timestamp < snapshotName front u.timestamp := by
  have hlength : (filenameStamp t.timestamp).length = (filenameStamp u.timestamp).length := by
    rw [← String.length_toList, ← String.length_toList, toList_stamp, toList_stamp, ht.length_marked,
      hu.length_marked]
  refine snapshotCandidate_lt_of_stamp hlength ?_ 0 0
  rw [String.lt_iff_toList_lt, toList_stamp, toList_stamp]
  exact marked_lt _ _ ht hu h

end Moment

/-- **Timestamps and names of snapshots are in the order of time** to the millisecond, with any front,
and are the same only within one.  A stamp has neither colons nor points, and a timestamp is accepted as
such. -/
theorem timestamps_in_order {t u : Moment} (ht : t.Dated) (hu : u.Dated) (front : String) :
    (t.timestamp < u.timestamp ↔ t.millis < u.millis)
      ∧ (t.timestamp = u.timestamp ↔ t.millis = u.millis)
      ∧ (snapshotName front t.timestamp < snapshotName front u.timestamp ↔ t.millis < u.millis)
      ∧ (snapshotName front t.timestamp = snapshotName front u.timestamp ↔ t.millis = u.millis)
      ∧ ':' ∉ (filenameStamp t.timestamp).toList ∧ '.' ∉ (filenameStamp t.timestamp).toList
      ∧ checkDateTime (.str t.timestamp) = .ok () := by
  obtain ⟨hless, hsame⟩ := Moment.in_order (f := Moment.timestamp) Moment.timestamp_lt
    Moment.timestamp_congr ht hu
  obtain ⟨hnameLess, hnameSame⟩ := Moment.in_order (f := fun t => snapshotName front t.timestamp)
    (Moment.snapshotName_lt front) (fun h => congrArg _ (Moment.timestamp_congr h)) ht hu
  rw [Moment.toList_stamp]
  refine ⟨hless, hsame, hnameLess, hnameSame, fun h => ?_, fun h => ?_, ht.checkDateTime⟩
  · exact absurd (Moment.mem_marked h) (by decide)
  · exact absurd (Moment.mem_marked h) (by decide)

/-- The last microsecond before a leap day and the first one of it. -/
theorem timestamps_in_order_leap_day :
    (Moment.mk 1709164799999999).Dated ∧ (Moment.mk 1709164800000000).Dated
      ∧ (Moment.mk 1709164799999999).timestamp < (Moment.mk 1709164800000000).timestamp
      ∧ snapshotName "dcp" (Moment.mk 1709164799999999).timestamp <
        snapshotName "dcp" (Moment.mk 1709164800000000).timestamp
      ∧ checkDateTime (.str (Moment.mk 1709164799999999).timestamp) = .ok () := by
  have hbefore : (Moment.mk 1709164799999999).Dated := ⟨by decide, by decide⟩
  have hleap : (Moment.mk 1709164800000000).Dated := ⟨by decide, by decide⟩
  have hless : (Moment.mk 1709164799999999).millis < (Moment.mk 1709164800000000).millis := by decide
  obtain ⟨horder, -, hnames, -, -, -, haccepted⟩ := timestamps_in_order hbefore hleap "dcp"
  exact ⟨hbefore, hleap, horder.2 hless, hnames.2 hless, haccepted⟩

end DesignRegistry
