import AdGuardHome.Lib.Float64
import AdGuardHome.Lib.Fallible

/-! `schedule.go`: the weekly schedules and the instants they contain. -/
namespace AdGuardHome.Schedule

abbrev Instant := Int

/-- `time.Duration`, in nanoseconds. -/
abbrev Duration := Int

def second : Duration := 1000000000
def minute : Duration := 60 * second
def hour : Duration := 60 * minute

/-- `maxDayRange`. -/
def maxDayRange : Duration := 24 * hour

/-- `time.Weekday`. -/
inductive Weekday where
  | sunday | monday | tuesday | wednesday | thursday | friday | saturday
deriving DecidableEq

namespace Weekday

def all : List Weekday := [sunday, monday, tuesday, wednesday, thursday, friday, saturday]

theorem mem_all (wd : Weekday) : wd ∈ all := by
  cases wd <;> decide

/-- The weekday of a day, counted from the first one of the Unix epoch, a Thursday. -/
def ofDay (day : Int) : Weekday :=
  match (day % 7).toNat with
  | 0 => thursday
  | 1 => friday
  | 2 => saturday
  | 3 => sunday
  | 4 => monday
  | 5 => tuesday
  | _ => wednesday

end Weekday

/-- `time.Location`: the seconds east of UTC at each second of the Unix time. -/
structure Location where
  offset : Int → Int

namespace Location

variable (loc : Location)

def offsetAt (t : Instant) : Duration := loc.offset (t / second) * second

/-- What the local clock shows at an instant, as the instant at which it is shown in UTC. -/
def clock (t : Instant) : Int := t + loc.offsetAt t

/-- `Time.Date`: the local day, counted from the first one of the Unix epoch. -/
def date (t : Instant) : Int := loc.clock t / maxDayRange

/-- `Time.Weekday`. -/
def weekday (t : Instant) : Weekday := .ofDay (loc.date t)

def timeOfDay (t : Instant) : Duration := loc.clock t % maxDayRange

/-- The offset that `time.Date` takes for the beginning of a day: the one at the same reading in
UTC gives a first guess, and the one at this guess is taken. -/
def dateOffset (day : Int) : Duration :=
  let unix := day * 86400
  loc.offset (unix - loc.offset unix) * second

/-- `time.Date` with zero for the time of the day. -/
def midnight (day : Int) : Instant := day * maxDayRange - loc.dateOffset day

end Location

/-- `dayRange`. -/
structure DayRange where
  start : Duration
  stop : Duration
deriving DecidableEq

/-- The error texts of the checks, with the durations in them. -/
inductive DayRangeError where
  | startNegative (start : Duration)
  | endNegative (stop : Duration)
  | startNotBeforeEnd (start stop : Duration)
  | startTooLate (start maxRange : Duration)
  | endTooLate (stop maxRange : Duration)
  | startNotRounded (start : Duration)
  | endNotRounded (stop : Duration)
deriving DecidableEq

namespace DayRange

def empty : DayRange := ⟨0, 0⟩

/-- `dayRange.validate`. -/
def validate (r : DayRange) : Except DayRangeError Unit :=
  if r = empty then .ok ()
  else if r.start < 0 then .error (.startNegative r.start)
  else if r.stop < 0 then .error (.endNegative r.stop)
  else if r.start ≥ r.stop then .error (.startNotBeforeEnd r.start r.stop)
  else if r.start ≥ maxDayRange then .error (.startTooLate r.start maxDayRange)
  else if r.stop > maxDayRange then .error (.endTooLate r.stop maxDayRange)
  else .ok ()

/-- `dayRange.contains`. -/
def contains (r : DayRange) (offset : Duration) : Bool := r.start ≤ offset && offset < r.stop

/-- `Duration.Truncate` to minutes, towards zero. -/
def truncate (d : Duration) : Duration := d - d.tmod minute

/-- `Weekly.validate`; its receiver has no part in it. -/
def validateRounded (r : DayRange) : Except DayRangeError Unit := do
  r.validate
  if truncate r.start ≠ r.start then .error (.startNotRounded r.start)
  else if truncate r.stop ≠ r.stop then .error (.endNotRounded r.stop)
  else .ok ()

theorem contains_iff {r : DayRange} {offset : Duration} :
    r.contains offset = true ↔ r.start ≤ offset ∧ offset < r.stop := by
  simp [contains]

structure Valid (r : DayRange) : Prop where
  order : r = empty ∨ 0 ≤ r.start ∧ r.start < r.stop ∧ r.stop ≤ maxDayRange
  start : truncate r.start = r.start
  stop : truncate r.stop = r.stop

theorem validate_ok {r : DayRange} (accepted : r.validate = .ok ()) :
    r = empty ∨ 0 ≤ r.start ∧ r.start < r.stop ∧ r.stop ≤ maxDayRange := by
  unfold validate at accepted
  split_ifs at accepted with zero negative _ order _ late
  · exact Or.inl zero
  · exact Or.inr ⟨not_lt.mp negative, not_le.mp order, not_lt.mp late⟩

theorem validateRounded_ok {r : DayRange} (accepted : r.validateRounded = .ok ()) : r.Valid := by
  unfold validateRounded at accepted
  cases checked : r.validate with
  | error err =>
    rw [checked] at accepted
    nomatch accepted
  | ok done =>
    rw [checked] at accepted
    have rest : (if truncate r.start ≠ r.start then Except.error (.startNotRounded r.start)
      else if truncate r.stop ≠ r.stop then .error (.endNotRounded r.stop)
      else .ok () : Except DayRangeError Unit) = .ok () := accepted
    split_ifs at rest with startRounded stopRounded
    exact ⟨validate_ok checked, not_not.mp startRounded, not_not.mp stopRounded⟩

end DayRange

/-- `Weekly`. -/
structure Weekly where
  location : Location
  days : Weekday → DayRange

namespace Weekly

/-- `EmptyWeekly`, in the local time zone. -/
def emptyWeekly (timeLocal : Location) : Weekly := ⟨timeLocal, fun _ => .empty⟩

/-- `FullWeekly`, in the local time zone. -/
def fullWeekly (timeLocal : Location) : Weekly := ⟨timeLocal, fun _ => ⟨0, maxDayRange⟩⟩

/-- `Weekly.Contains`. -/
def contains (w : Weekly) (t : Instant) : Bool :=
  let dr := w.days (w.location.weekday t)
  let day := w.location.midnight (w.location.date t)
  let offset := t - day
  dr.contains offset

/-- The loop of `UnmarshalJSON` and `UnmarshalYAML` over the ranges that were read, an absent one
being empty: the first bad one is an error for its weekday. -/
def unmarshal (location : Location) (days : Weekday → DayRange) :
    Except (Weekday × DayRangeError) Weekly := do
  Weekday.all.forM fun wd =>
    match (days wd).validateRounded with
    | .error err => .error (wd, err)
    | .ok () => .ok ()
  return ⟨location, days⟩

theorem unmarshal_valid {location : Location} {days : Weekday → DayRange} {w : Weekly}
    (accepted : unmarshal location days = .ok w) : ∀ wd, (w.days wd).Valid := by
  obtain ⟨checked, made⟩ := Fallible.bind_unit_ok_iff.mp accepted
  cases made
  intro wd
  have here := Fallible.forM_ok_iff.mp checked wd wd.mem_all
  split at here
  next => nomatch here
  next valid => exact DayRange.validateRounded_ok valid

/-- The time since the beginning of the local day, as `Contains` takes it. -/
def sinceMidnight (w : Weekly) (t : Instant) : Duration :=
  t - w.location.midnight (w.location.date t)

def range (w : Weekly) (t : Instant) : DayRange := w.days (w.location.weekday t)

theorem contains_iff (w : Weekly) (t : Instant) :
    w.contains t = true ↔ (w.range t).start ≤ w.sinceMidnight t ∧
      w.sinceMidnight t < (w.range t).stop := DayRange.contains_iff

theorem sinceMidnight_eq (w : Weekly) (t : Instant) :
    w.sinceMidnight t = w.location.timeOfDay t +
      (w.location.dateOffset (w.location.date t) - w.location.offsetAt t) := by
  have parts := Int.emod_add_mul_ediv (w.location.clock t) maxDayRange
  simp only [sinceMidnight, Location.midnight, Location.timeOfDay, Location.date] at *
  have reading : w.location.clock t = t + w.location.offsetAt t := rfl
  linarith

end Weekly

namespace Location

/-- Around a second the zone changes its offset at most once, and no offset is larger than the
bound. -/
def ChangesOnce (loc : Location) (unix bound : Int) : Prop :=
  (∀ sec, -bound ≤ loc.offset sec ∧ loc.offset sec ≤ bound) ∧
  ∃ change before after, ∀ sec, unix - bound ≤ sec → sec ≤ unix + bound →
    loc.offset sec = if sec < change then before else after

def ReadsMidnight (loc : Location) (day : Int) (t : Instant) : Prop :=
  loc.clock t = day * maxDayRange

theorem readsMidnight_iff {loc : Location} {day unix : Int} :
    loc.ReadsMidnight day (unix * second) ↔ unix + loc.offset unix = day * 86400 := by
  have positive : second ≠ 0 := by decide
  rw [ReadsMidnight, clock, offsetAt, Int.mul_ediv_cancel _ positive, maxDayRange, hour, minute]
  constructor
  · intro shown
    apply Int.eq_of_mul_eq_mul_right positive
    linarith
  · intro same
    have scaled : (unix + loc.offset unix) * second = day * 86400 * second := by rw [same]
    linarith

theorem ReadsMidnight.whole {loc : Location} {day : Int} {t : Instant}
    (shown : loc.ReadsMidnight day t) : ∃ unix : Int, t = unix * second := by
  refine ⟨day * 86400 - loc.offset (t / second), ?_⟩
  simp only [ReadsMidnight, clock, offsetAt, maxDayRange, hour, minute] at shown
  linarith

theorem midnight_reads {loc : Location} {day bound : Int}
    (once : loc.ChangesOnce (day * 86400) bound) {t : Instant} (shown : loc.ReadsMidnight day t) :
    loc.ReadsMidnight day (loc.midnight day) := by
  obtain ⟨within, change, before, after, around⟩ := once
  obtain ⟨unix, rfl⟩ := shown.whole
  rw [readsMidnight_iff] at shown
  have whole : loc.midnight day = (day * 86400 -
      loc.offset (day * 86400 - loc.offset (day * 86400))) * second := by
    simp only [midnight, dateOffset, maxDayRange, hour, minute]
    linarith
  rw [whole, readsMidnight_iff]
  -- The seconds that are looked up all lie around the same reading in UTC.
  have atUTC := within (day * 86400)
  have atGuess := within (day * 86400 - loc.offset (day * 86400))
  have here := around (day * 86400) (by omega) (by omega)
  have guess := around (day * 86400 - loc.offset (day * 86400)) (by omega) (by omega)
  have found := around (day * 86400 - loc.offset (day * 86400 - loc.offset (day * 86400)))
    (by omega) (by omega)
  have atShown := within unix
  have real := around unix (by omega) (by omega)
  generalize loc.offset (day * 86400 - loc.offset (day * 86400 -
    loc.offset (day * 86400))) = last at *
  generalize loc.offset (day * 86400 - loc.offset (day * 86400)) = second at *
  generalize loc.offset (day * 86400) = first at *
  generalize loc.offset unix = shownOffset at *
  split_ifs at here guess found real <;> omega

end Location

/-- The ranges are measured from the beginning of the local day: with the offset of that
moment they are the wall-clock times, and the whole day is contained. -/
structure Measures (w : Weekly) (t : Instant) : Prop where
  elapsed : w.contains t = true ↔
    (w.range t).start ≤ w.sinceMidnight t ∧ w.sinceMidnight t < (w.range t).stop
  corrected : w.sinceMidnight t = w.location.timeOfDay t +
    (w.location.dateOffset (w.location.date t) - w.location.offsetAt t)
  wallClock : w.location.offsetAt t = w.location.dateOffset (w.location.date t) →
    (w.contains t = true ↔ (w.range t).start ≤ w.location.timeOfDay t ∧
      w.location.timeOfDay t < (w.range t).stop)
  wholeDay : w.location.offsetAt t = w.location.dateOffset (w.location.date t) →
    w.range t = ⟨0, maxDayRange⟩ → w.contains t = true
  midnight : ∀ bound shown, w.location.ChangesOnce (w.location.date t * 86400) bound →
    w.location.ReadsMidnight (w.location.date t) shown →
    w.location.ReadsMidnight (w.location.date t) (t - w.sinceMidnight t)

theorem Location.timeOfDay_bounds (loc : Location) (t : Instant) :
    0 ≤ loc.timeOfDay t ∧ loc.timeOfDay t < maxDayRange :=
  ⟨Int.emod_nonneg _ (by decide), Int.emod_lt_of_pos _ (by decide)⟩

/-- Every weekly schedule in every zone measures its ranges so. -/
theorem weekly_measures (w : Weekly) (t : Instant) : Measures w t := by
  have wallClock : w.location.offsetAt t = w.location.dateOffset (w.location.date t) →
      w.sinceMidnight t = w.location.timeOfDay t := by
    intro same
    rw [w.sinceMidnight_eq, same, sub_self, add_zero]
  refine ⟨w.contains_iff t, w.sinceMidnight_eq t, ?_, ?_, ?_⟩
  · intro same
    rw [w.contains_iff, wallClock same]
  · intro same whole
    rw [w.contains_iff, wallClock same, whole]
    exact w.location.timeOfDay_bounds t
  · intro bound shown once reads
    have start : t - w.sinceMidnight t = w.location.midnight (w.location.date t) :=
      sub_sub_cancel _ _
    rw [start]
    exact Location.midnight_reads once reads

section Examples

def Location.ChangesRarely (loc : Location) : Prop :=
  ∃ changes : List Int, ∀ sec, loc.offset sec = loc.offset (sec - 1) ∨
    sec ∈ changes ∧ |loc.offset sec - loc.offset (sec - 1)| ≤ 3 * 3600

-- An hour east of UTC until one in the morning of a Sunday.
private def autumn : Location := ⟨fun sec => if sec < 1792890000 then 3600 else 0⟩

/-- The full schedule does not contain the last hour of the day that has 25 of them. -/
theorem last_hour_is_not_contained :
    ¬ ∀ (w : Weekly) (t : Instant), w.location.ChangesRarely →
      (w.range t = ⟨0, maxDayRange⟩ → w.contains t = true) ∧
      (w.contains t = true ↔ (w.range t).start ≤ w.location.timeOfDay t ∧
        w.location.timeOfDay t < (w.range t).stop) := by
  intro always
  have rarely : autumn.ChangesRarely := by
    refine ⟨[1792890000], fun sec => ?_⟩
    by_cases change : sec = 1792890000
    · right
      subst change
      exact ⟨List.mem_singleton.mpr rfl, by decide⟩
    · left
      simp only [autumn]
      split_ifs <;> omega
  have contained := (always (.fullWeekly autumn) (1792971000 * second) rarely).1 rfl
  revert contained
  decide

end Examples

/-- A `time.Location` with the name that `String` returns. -/
structure Zone where
  name : String
  location : Location

/-- The zones of package `time`. -/
structure ZoneDatabase where
  loadLocation : String → Option Zone
  timeLocal : Zone

/-- Loaded by its own name, if it can be, a zone is the same one. -/
def ZoneDatabase.Reloads (db : ZoneDatabase) (zone : Zone) : Prop :=
  ∀ other, db.loadLocation zone.name = some other → other = zone

structure ZoneDatabase.Documented (db : ZoneDatabase) : Prop where
  loaded : ∀ text zone, db.loadLocation text = some zone → db.Reloads zone
  timeLocal : db.Reloads db.timeLocal

/-- `Weekly`, with the name of its zone. -/
structure ZonedWeekly where
  zone : Zone
  days : Weekday → DayRange

def float (x : ℚ) : ℚ := if x < 0 then -Float64.round (-x) else Float64.round x

/-- `JSONDuration.MarshalJSON`: the number of milliseconds. -/
def durationToJSON (d : Duration) : ℚ := float (float d / 1000000)

/-- `JSONDuration.UnmarshalJSON`, which truncates towards zero. -/
def durationOfJSON (msec : ℚ) : Duration :=
  let nsec := float (msec * 1000000)
  if nsec < 0 then ⌈nsec⌉ else ⌊nsec⌋

/-- `dayConfigJSON`. -/
structure DayConfigJSON where
  start : ℚ
  stop : ℚ
deriving DecidableEq

/-- `weeklyConfigJSON`. -/
structure WeeklyConfigJSON where
  timeZone : String
  days : Weekday → Option DayConfigJSON

/-- `dayRange.toDayConfigJSON`. -/
def DayRange.toDayConfigJSON (r : DayRange) : Option DayConfigJSON :=
  if r = .empty then none else some ⟨durationToJSON r.start, durationToJSON r.stop⟩

/-- The range that `UnmarshalJSON` makes of a day, which may be left out. -/
def DayRange.ofDayConfigJSON : Option DayConfigJSON → DayRange
  | none => .empty
  | some day => ⟨durationOfJSON day.start, durationOfJSON day.stop⟩

/-- Why a schedule cannot be read. -/
inductive ScheduleError where
  | badLocation (name : String)
  | badDay (wd : Weekday) (error : DayRangeError)

namespace ZonedWeekly

def weekly (w : ZonedWeekly) : Weekly := ⟨w.zone.location, w.days⟩

/-- `EmptyWeekly`. -/
def emptyWeekly (db : ZoneDatabase) : ZonedWeekly := ⟨db.timeLocal, fun _ => .empty⟩

/-- What `UnmarshalJSON` and `UnmarshalYAML` do with the name of the zone and the ranges. -/
def read (db : ZoneDatabase) (timeZone : String) (days : Weekday → DayRange) :
    Except ScheduleError ZonedWeekly :=
  match db.loadLocation timeZone with
  | none => .error (.badLocation timeZone)
  | some zone =>
    match Weekly.unmarshal zone.location days with
    | .error (wd, error) => .error (.badDay wd error)
    | .ok weekly => .ok ⟨zone, weekly.days⟩

/-- `Weekly.UnmarshalJSON`. -/
def unmarshalJSON (db : ZoneDatabase) (conf : WeeklyConfigJSON) : Except ScheduleError ZonedWeekly :=
  read db conf.timeZone fun wd => .ofDayConfigJSON (conf.days wd)

/-- `Weekly.MarshalJSON`. -/
def marshalJSON (w : ZonedWeekly) : WeeklyConfigJSON where
  timeZone := w.zone.name
  days wd := (w.days wd).toDayConfigJSON

/-- A schedule as it is read: its zone has been loaded and its ranges have been checked. -/
structure Settled (db : ZoneDatabase) (w : ZonedWeekly) : Prop where
  zone : db.Reloads w.zone
  days : ∀ wd, (w.days wd).Valid

end ZonedWeekly

theorem float_natCast {n : ℕ} (small : n < 2 ^ 53) : float n = n := by
  rw [float, if_neg (not_lt.mpr n.cast_nonneg), Float64.round_natCast small]

theorem durationOfJSON_toJSON {d : Duration} (nonneg : 0 ≤ d) (bound : d ≤ maxDayRange)
    (rounded : DayRange.truncate d = d) : durationOfJSON (durationToJSON d) = d := by
  have whole : d.tmod minute = 0 := by
    unfold DayRange.truncate at rounded
    linarith
  obtain ⟨minutes, rfl⟩ := Int.dvd_of_tmod_eq_zero whole
  have positive : (0 : Int) < minute := by decide
  obtain ⟨k, rfl⟩ := Int.eq_ofNat_of_zero_le (Int.nonneg_of_mul_nonneg_right nonneg positive)
  have day : k ≤ 1440 := by
    have bound : minute * (k : Int) ≤ minute * 1440 := bound
    exact_mod_cast Int.le_of_mul_le_mul_left bound positive
  have nanoseconds : ((minute * (k : Int) : Int) : ℚ) = ((60000000000 * k : ℕ) : ℚ) := by
    simp only [minute, second]
    push_cast
    ring
  have milliseconds : ((60000000000 * k : ℕ) : ℚ) / 1000000 = ((60000 * k : ℕ) : ℚ) := by
    push_cast
    ring
  have back : ((60000 * k : ℕ) : ℚ) * 1000000 = ((60000000000 * k : ℕ) : ℚ) := by
    push_cast
    ring
  rw [durationToJSON, nanoseconds, float_natCast (by omega), milliseconds,
    float_natCast (by omega), durationOfJSON, back, float_natCast (by omega)]
  simp only [if_neg (not_lt.mpr (Nat.cast_nonneg (α := ℚ) _)), Int.floor_natCast]
  simp only [minute, second]
  push_cast
  ring

theorem ofDayConfigJSON_toDayConfigJSON {r : DayRange} (valid : r.Valid) :
    DayRange.ofDayConfigJSON r.toDayConfigJSON = r := by
  unfold DayRange.toDayConfigJSON
  split
  · rename_i empty
    exact empty.symm
  · rename_i filled
    obtain ⟨nonneg, order, bound⟩ := valid.order.resolve_left filled
    have start := durationOfJSON_toJSON nonneg (by linarith) valid.start
    have stop := durationOfJSON_toJSON (by linarith) bound valid.stop
    simp only [DayRange.ofDayConfigJSON, start, stop]

namespace ZonedWeekly

variable {db : ZoneDatabase}

theorem read_ok {timeZone : String} {days : Weekday → DayRange} {w : ZonedWeekly}
    (accepted : read db timeZone days = .ok w) :
    db.loadLocation timeZone = some w.zone ∧ w.days = days ∧ ∀ wd, (w.days wd).Valid := by
  unfold read at accepted
  split at accepted
  · cases accepted
  · rename_i zone loaded
    split at accepted
    · cases accepted
    · rename_i weekly made
      cases accepted
      have valid := Weekly.unmarshal_valid made
      obtain ⟨_, same⟩ := Fallible.bind_unit_ok_iff.mp made
      cases same
      exact ⟨loaded, rfl, valid⟩

theorem read_settled (documented : db.Documented) {timeZone : String} {days : Weekday → DayRange}
    {w : ZonedWeekly} (accepted : read db timeZone days = .ok w) : w.Settled db := by
  obtain ⟨loaded, _, valid⟩ := read_ok accepted
  exact ⟨documented.loaded timeZone w.zone loaded, valid⟩

theorem emptyWeekly_settled (documented : db.Documented) : (emptyWeekly db).Settled db where
  zone := documented.timeLocal
  days _ := ⟨.inl rfl, rfl, rfl⟩

theorem unmarshalJSON_marshalJSON {w other : ZonedWeekly} (settled : w.Settled db)
    (accepted : unmarshalJSON db w.marshalJSON = .ok other) : other = w := by
  obtain ⟨loaded, days, _⟩ := read_ok accepted
  have zone := settled.zone other.zone loaded
  have same : other.days = w.days := by
    rw [days]
    exact funext fun wd => ofDayConfigJSON_toDayConfigJSON (settled.days wd)
  cases other
  cases w
  cases zone
  cases same
  rfl

end ZonedWeekly

end AdGuardHome.Schedule
