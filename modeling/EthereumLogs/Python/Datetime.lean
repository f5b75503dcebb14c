import EthereumLogs.Python.Value
import Mathlib.Algebra.Group.Int.Defs

namespace EthereumLogs.Python

structure Datetime where
  wall : Int
  utcoffset : Option Int
deriving DecidableEq, Repr

abbrev Instant := Int

def Datetime.utc (t : Instant) : Datetime := ⟨t, some 0⟩

def Datetime.instant (d : Datetime) : Instant := d.wall - d.utcoffset.getD 0

def Datetime.isAware (d : Datetime) : Bool := d.utcoffset.isSome

def microsPerSecond : Int := 1000000
def microsPerHour : Int := 3600 * microsPerSecond
def microsPerDay : Int := 24 * microsPerHour

-- 0001-01-01T00:00:00 and 9999-12-31T23:59:59.999999
def datetimeMin : Instant := -62135596800 * microsPerSecond
def datetimeMax : Instant := 253402300800 * microsPerSecond - 1

def dateOutOfRange : Exc := .overflowError "date value out of range"

def Datetime.Representable (d : Datetime) : Prop :=
  datetimeMin ≤ d.instant ∧ d.instant ≤ datetimeMax

instance (d : Datetime) : Decidable d.Representable :=
  inferInstanceAs (Decidable (datetimeMin ≤ d.instant ∧ d.instant ≤ datetimeMax))

-- astimezone(timezone.utc) gives a UTC value back as it is
def Datetime.astimezoneUtc (missing : Exc) (d : Datetime) : Except Exc Instant :=
  match d.utcoffset with
  | none => .error missing
  | some offset =>
    if offset = 0 ∨ d.Representable then .ok (d.wall - offset) else .error dateOutOfRange

def addTimedelta (t : Instant) (micros : Int) : Except Exc Instant :=
  if datetimeMin ≤ t + micros ∧ t + micros ≤ datetimeMax then .ok (t + micros)
  else .error dateOutOfRange

-- timedelta(seconds=...), in microseconds
def timedelta (seconds : Int) : Except Exc Int :=
  let days := seconds / 86400
  if days.natAbs ≤ 999999999 then .ok (seconds * microsPerSecond)
  else if -2 ^ 31 ≤ days ∧ days < 2 ^ 31 then
    .error (.overflowError s!"days={days}; must have magnitude <= 999999999")
  else .error (.overflowError "Python int too large to convert to C int")

def minusSeconds (t : Instant) (seconds : Int) : Except Exc Instant := do
  let delta ← timedelta seconds
  addTimedelta t (-delta)

def fromTimestamp (seconds : Int) : Except Exc Instant :=
  if seconds ≤ 253402300799 then .ok (seconds * microsPerSecond)
  else if seconds ≤ 67768036191676799 then .error (.valueError "year is out of range")
  else if seconds < 2 ^ 63 then .error (.osError "Value too large for defined data type")
  else .error (.overflowError "timestamp out of range for platform time_t")

def dateOf (t : Instant) : Int := t / microsPerDay

structure CivilDate where
  year : Int
  month : Int
  day : Int
deriving DecidableEq, Repr

-- days are counted from 1970-01-01, months from March inside a 400-year era
def civilDate (days : Int) : CivilDate :=
  let z := days + 719468
  let doe := z % 146097
  let yoe := (doe - doe / 1460 + doe / 36524 - doe / 146096) / 365
  let doy := doe - (365 * yoe + yoe / 4 - yoe / 100)
  let mp := (5 * doy + 2) / 153
  let month := if mp < 10 then mp + 3 else mp - 9
  { year := yoe + z / 146097 * 400 + (if month ≤ 2 then 1 else 0)
    month := month
    day := doy - (153 * mp + 2) / 5 + 1 }

def zeroPadded (width : Nat) (n : Int) : Text :=
  let digits := decimalText n.toNat
  List.replicate (width - digits.length) '0' ++ digits

def clockText (micros : Int) : Text :=
  let seconds := micros / microsPerSecond
  zeroPadded 2 (seconds / 3600) ++ [':'] ++ zeroPadded 2 (seconds / 60 % 60) ++ [':'] ++
    zeroPadded 2 (seconds % 60) ++
    (if micros % microsPerSecond = 0 then [] else '.' :: zeroPadded 6 (micros % microsPerSecond))

def utcIsoformat (t : Instant) : Text :=
  let date := civilDate (dateOf t)
  zeroPadded 4 date.year ++ ['-'] ++ zeroPadded 2 date.month ++ ['-'] ++ zeroPadded 2 date.day ++
    ['T'] ++ clockText (t % microsPerDay) ++ ['Z']

example : utcIsoformat 0 = "1970-01-01T00:00:00Z".toList ∧
    utcIsoformat 1709208000000500 = "2024-02-29T12:00:00.000500Z".toList := by decide +kernel

@[simp] theorem instant_utc (t : Instant) : (Datetime.utc t).instant = t := by
  simp [Datetime.utc, Datetime.instant]

@[simp] theorem astimezone_utc (missing : Exc) (t : Instant) :
    (Datetime.utc t).astimezoneUtc missing = .ok t := by
  simp [Datetime.utc, Datetime.astimezoneUtc]

theorem astimezone_utc_instant (t : Instant) (missing : Exc) :
    (Datetime.utc t).astimezoneUtc missing = .ok (Datetime.utc t).instant := by
  rw [astimezone_utc, instant_utc]

theorem minusSeconds_error {t : Instant} {seconds : Int} {e : Exc}
    (h : minusSeconds t seconds = .error e) : e.isPipelineError = false := by
  unfold minusSeconds timedelta addTimedelta at h
  dsimp only at h
  split_ifs at h with hdays hcint
  · change (if _ then _ else _) = _ at h
    split_ifs at h
    · cases h
      rfl
  · cases h
    rfl
  · cases h
    rfl

theorem astimezone_ok {missing : Exc} {d : Datetime} {t : Instant}
    (h : d.astimezoneUtc missing = .ok t) : d.isAware = true ∧ d.instant = t := by
  unfold Datetime.astimezoneUtc at h
  cases hd : d.utcoffset with
  | none => simp [hd] at h
  | some offset =>
    simp only [hd] at h
    split_ifs at h
    · cases h
      simp [Datetime.isAware, Datetime.instant, hd]

theorem astimezone_aware {d : Datetime} (missing : Exc) (h : d.isAware = true)
    (hrange : d.Representable) : d.astimezoneUtc missing = .ok d.instant := by
  obtain ⟨offset, ho⟩ := Option.isSome_iff_exists.mp h
  simp only [Datetime.astimezoneUtc, ho, hrange, or_true, if_true]
  simp [Datetime.instant, ho]

end EthereumLogs.Python
