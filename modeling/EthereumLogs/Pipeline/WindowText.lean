import EthereumLogs.Library.Calendar
import EthereumLogs.Dbt.DecimalText
import EthereumLogs.Pipeline.HourlyTotals

namespace EthereumLogs.Duckdb
open Python

section Cast

def leadingNumber (most : Nat) (s : Text) : Option (Int × Text) :=
  let digits := s.takeWhile isDigit
  if digits = [] ∨ most < digits.length then none
  else some (digitsValue digits, s.dropWhile isDigit)

def separator (allowed : List Char) : Text → Option Text
  | [] => none
  | c :: rest => if c ∈ allowed then some rest else none

def leadingFraction : Text → Option (Int × Text)
  | '.' :: rest =>
    let digits := rest.takeWhile isDigit
    if 6 < digits.length then none
    else some (digitsValue (digits ++ List.replicate (6 - digits.length) '0'), rest.dropWhile isDigit)
  | rest => some (0, rest)

def leadingDate (s : Text) : Option (Int × Text) := do
  let (year, s) ← leadingNumber 6 s
  let s ← separator ['-'] s
  let (month, s) ← leadingNumber 2 s
  let s ← separator ['-'] s
  let (day, s) ← leadingNumber 2 s
  if Calendar.Valid year month day then some (Calendar.dayNumber year month day, s) else none

def leadingClock (s : Text) : Option (Int × Text) := do
  let (hour, s) ← leadingNumber 2 s
  let s ← separator [':'] s
  let (minute, s) ← leadingNumber 2 s
  let s ← separator [':'] s
  let (second, s) ← leadingNumber 2 s
  let (micros, s) ← leadingFraction s
  if hour < 24 ∧ minute < 60 ∧ second < 60 then
    some ((hour * 3600 + minute * 60 + second) * microsPerSecond + micros, s)
  else none

-- cast(s as timestamp) of a date and a clock time in UTC; offsets other than Z are left out
def castTimestamp (s : Text) : Option Instant := do
  let (days, s) ← leadingDate s
  let s ← separator ['T', ' '] s
  let (micros, s) ← leadingClock s
  if s = [] ∨ s = ['Z'] then some (days * microsPerDay + micros) else none

example : castTimestamp "1970-01-01T00:00:00Z".toList = some 0 ∧
    castTimestamp "2024-02-29 12:00:00.0005".toList = some 1709208000000500 ∧
    castTimestamp "2023-02-29T12:00:00Z".toList = none := by decide +kernel

end Cast

section RoundTrip

variable {width most : ℕ} {n : ℤ} {c : Char} {rest : Text} {t : Instant}

theorem separator_cons {allowed : List Char} (h : c ∈ allowed) :
    separator allowed (c :: rest) = some rest := if_pos h

theorem allDigits_zeroPadded (width : ℕ) (n : ℤ) : AllDigits (zeroPadded width n) := by
  intro c hc
  rw [zeroPadded] at hc
  rcases List.mem_append.mp hc with hc | hc
  · rw [List.eq_of_mem_replicate hc]
    rfl
  · exact allDigits_decimalText c hc

theorem digitsValue_zeroPadded (h : 0 ≤ n) : (digitsValue (zeroPadded width n) : ℤ) = n := by
  rw [zeroPadded, digitsValue_append, digitsValue_zeros, digitsValue_decimalText, zero_mul, zero_add,
    Int.toNat_of_nonneg h]

theorem length_zeroPadded (hwidth : 0 < width) (h : n < 10 ^ width) :
    (zeroPadded width n).length = width := by
  have hdigits : (decimalText n.toNat).length ≤ width := by
    rw [length_decimalText_le_iff hwidth]
    have hcast : ((10 ^ width : ℕ) : ℤ) = 10 ^ width := by push_cast; rfl
    have hpos : 0 < 10 ^ width := by positivity
    omega
  rw [zeroPadded, List.length_append, List.length_replicate]
  omega

theorem leadingNumber_zeroPadded (hwidth : 0 < width) (hmost : width ≤ most) (h0 : 0 ≤ n)
    (h : n < 10 ^ width) (hc : isDigit c = false) :
    leadingNumber most (zeroPadded width n ++ c :: rest) = some (n, c :: rest) := by
  obtain ⟨htake, hdrop⟩ := takeWhile_digits (t := rest) (allDigits_zeroPadded width n) hc
  have hlength := length_zeroPadded hwidth h
  rw [leadingNumber, htake, hdrop, if_neg, digitsValue_zeroPadded h0]
  rintro (hnil | hlong)
  · rw [hnil, List.length_nil] at hlength
    omega
  · omega

def fractionText (micros : ℤ) : Text := if micros = 0 then [] else '.' :: zeroPadded 6 micros

theorem fractionText_head (n : ℤ) (rest : Text) :
    ∃ c tail, fractionText n ++ 'Z' :: rest = c :: tail ∧ isDigit c = false := by
  rw [fractionText]
  split_ifs
  · exact ⟨'Z', rest, rfl, rfl⟩
  · exact ⟨'.', _, rfl, rfl⟩

theorem leadingFraction_text (rest : Text) (h0 : 0 ≤ n) (h : n < 1000000) :
    leadingFraction (fractionText n ++ 'Z' :: rest) = some (n, 'Z' :: rest) := by
  rw [fractionText]
  split_ifs with hn
  · rw [hn]
    rfl
  · obtain ⟨htake, hdrop⟩ := takeWhile_digits (c := 'Z') (t := rest)
      (allDigits_zeroPadded 6 n) rfl
    have hlength : (zeroPadded 6 n).length = 6 := length_zeroPadded (by decide) h
    rw [List.cons_append, leadingFraction, htake, hdrop, hlength, if_neg (by decide), Nat.sub_self,
      List.replicate_zero, List.append_nil, digitsValue_zeroPadded h0]

def InDatetimeRange (t : Instant) : Prop :=
  1 ≤ (civilDate (dateOf t)).year ∧ (civilDate (dateOf t)).year ≤ 9999

instance (t : Instant) : Decidable (InDatetimeRange t) := inferInstanceAs (Decidable (_ ∧ _))

def dateText (days : ℤ) : Text :=
  zeroPadded 4 (civilDate days).year ++ ['-'] ++ zeroPadded 2 (civilDate days).month ++ ['-'] ++
    zeroPadded 2 (civilDate days).day

theorem leadingDate_text {days : ℤ} (h : 1 ≤ (civilDate days).year ∧ (civilDate days).year ≤ 9999)
    (hc : isDigit c = false) : leadingDate (dateText days ++ c :: rest) = some (days, c :: rest) := by
  obtain ⟨hvalid, hnumber⟩ := Calendar.civil_spec days
  have hyear : (civilDate days).year = Calendar.civilYear days := rfl
  have hmonth : (civilDate days).month = Calendar.civilMonth days := rfl
  have hday : (civilDate days).day = Calendar.civilDay days := rfl
  have hlength := Calendar.daysInMonth_le (Calendar.civilYear days) (Calendar.civilMonth days)
  obtain ⟨hinYear, hinMonth⟩ := id hvalid
  rw [leadingDate, dateText, hyear, hmonth, hday]
  rw [hyear] at h
  simp only [List.append_assoc, List.cons_append, List.nil_append]
  rw [leadingNumber_zeroPadded (by decide) (by decide) (by omega) (by norm_num; omega) rfl]
  simp only [Option.bind_eq_bind, Option.bind_some]
  rw [separator_cons (by simp)]
  simp only [Option.bind_some]
  rw [leadingNumber_zeroPadded (by decide) (by decide) (by omega) (by norm_num; omega) rfl]
  simp only [Option.bind_some]
  rw [separator_cons (by simp)]
  simp only [Option.bind_some]
  rw [leadingNumber_zeroPadded (by decide) (by decide) (by omega) (by norm_num; omega) hc]
  simp only [Option.bind_some]
  rw [if_pos hvalid, hnumber]

theorem leadingClock_text (h0 : 0 ≤ n) (h : n < microsPerDay) :
    leadingClock (clockText n ++ 'Z' :: rest) = some (n, 'Z' :: rest) := by
  simp only [microsPerDay, microsPerHour, microsPerSecond] at h
  have htext : clockText n = zeroPadded 2 (n / 1000000 / 3600) ++ [':'] ++
      zeroPadded 2 (n / 1000000 / 60 % 60) ++ [':'] ++ zeroPadded 2 (n / 1000000 % 60) ++
      fractionText (n % 1000000) := rfl
  have hfraction := leadingFraction_text rest (n := n % 1000000) (by omega) (by omega)
  obtain ⟨c, tail, htail, hc⟩ := fractionText_head (n % 1000000) rest
  rw [leadingClock, htext]
  simp only [List.append_assoc, List.cons_append, List.nil_append]
  rw [htail] at hfraction ⊢
  rw [leadingNumber_zeroPadded (by decide) (by decide) (by omega) (by norm_num; omega) rfl]
  simp only [Option.bind_eq_bind, Option.bind_some]
  rw [separator_cons (by simp)]
  simp only [Option.bind_some]
  rw [leadingNumber_zeroPadded (by decide) (by decide) (by omega) (by norm_num; omega) rfl]
  simp only [Option.bind_some]
  rw [separator_cons (by simp)]
  simp only [Option.bind_some]
  rw [leadingNumber_zeroPadded (by decide) (by decide) (by omega) (by norm_num; omega) hc]
  simp only [Option.bind_some]
  rw [hfraction]
  simp only [Option.bind_some, microsPerSecond]
  rw [if_pos (by omega)]
  congr 2
  omega

theorem castTimestamp_utcIsoformat (h : InDatetimeRange t) : castTimestamp (utcIsoformat t) = some t := by
  have hday : 0 ≤ t % microsPerDay ∧ t % microsPerDay < microsPerDay := by
    simp only [microsPerDay, microsPerHour, microsPerSecond, Instant] at *
    omega
  have hsplit : dateOf t * microsPerDay + t % microsPerDay = t := by
    rw [dateOf]
    simp only [microsPerDay, microsPerHour, microsPerSecond, Instant] at *
    omega
  have htext : utcIsoformat t = dateText (dateOf t) ++ 'T' :: (clockText (t % microsPerDay) ++ ['Z']) := by
    rw [utcIsoformat, dateText]
    simp only [List.append_assoc, List.cons_append, List.nil_append]
  rw [castTimestamp, htext, leadingDate_text h rfl]
  simp only [Option.bind_eq_bind, Option.bind_some]
  rw [separator_cons (by simp)]
  simp only [Option.bind_some]
  rw [leadingClock_text hday.1 hday.2]
  simp only [Option.bind_some]
  rw [if_pos (by simp), hsplit]

end RoundTrip

end EthereumLogs.Duckdb

namespace EthereumLogs.Dbt
open Python Effect Duckdb DeltaWriter

section Command

-- dbt_project.yml
def windowDefaults : JsonObject :=
  [("window_start", .str "1970-01-01T00:00:00Z".toList),
   ("window_end", .str "1970-01-01T01:00:00Z".toList)]

def windowVars (start stop : Instant) : JsonObject :=
  [("window_start", .str (utcIsoformat start)), ("window_end", .str (utcIsoformat stop))]

-- cast('{{ var("name") }}' as timestamp)
def castVar (varsPayload : JsonObject) (name : String) : Option Instant :=
  match JsonObject.get (varsPayload ++ windowDefaults) name with
  | some (.str s) => castTimestamp s
  | _ => none

def windowOfVars (varsPayload : JsonObject) : Option Window := do
  let start ← castVar varsPayload "window_start"
  let stop ← castVar varsPayload "window_end"
  pure ⟨start, stop⟩

variable (vars : DbtVars) (process : DbtProcess)

-- a text that does not cast fails the first model that filters by the window
def dbtCommand (varsPayload : JsonObject) (table : Option DeltaTable) : Action Warehouse Unit :=
  match windowOfVars varsPayload with
  | some window => dbtBuild vars process window table
  | none => do
    runNode process .ethereumLogs table.isSome
    runNode process .ethereumLogsTests (ethereumLogsTests (ethereumLogs (storedRows table)))
    throw process.failure

def runDbtCommand : DbtRunner Warehouse := fun _settings start stop table => do
  Eff.ofExcept (startProcess process)
  dbtCommand vars process (windowVars start stop) table
  Eff.ofExcept (finishProcess process)
  pure [("returncode", .int 0), ("vars", .obj (windowVars start stop))]

end Command

section Transparent

variable {vars : DbtVars} {process : DbtProcess} {start stop : Instant}

theorem windowOfVars_windowVars (hstart : InDatetimeRange start) (hstop : InDatetimeRange stop) :
    windowOfVars (windowVars start stop) = some ⟨start, stop⟩ := by
  have hfirst : castVar (windowVars start stop) "window_start" = some start :=
    castTimestamp_utcIsoformat hstart
  have hlast : castVar (windowVars start stop) "window_end" = some stop :=
    castTimestamp_utcIsoformat hstop
  rw [windowOfVars, hfirst, hlast]
  rfl

theorem runDbtCommand_eq (hstart : InDatetimeRange start) (hstop : InDatetimeRange stop)
    (settings : PipelineSettings) (table : Option DeltaTable) :
    runDbtCommand vars process settings start stop table =
      runDbtBuild vars process settings start stop table := by
  rw [runDbtCommand, runDbtBuild, dbtCommand, windowOfVars_windowVars hstart hstop]
  rfl

end Transparent

end EthereumLogs.Dbt

namespace EthereumLogs.Pipeline
open Python Effect Duckdb DeltaWriter Dbt

theorem run_interval_window_text {ρ : Type} (client : EthereumClient ρ) (vars : DbtVars)
    (process : DbtProcess) (interval : Interval Warehouse)
    (hstart : InDatetimeRange interval.startUtc.instant)
    (hstop : InDatetimeRange interval.endUtc.instant) :
    runInterval client { interval with dbtRunner := runDbtCommand vars process } =
      runInterval client { interval with dbtRunner := runDbtBuild vars process } := by
  funext w
  rcases hprepare : onRpc (prepareRows client interval) w with ⟨e | prepared, w'⟩
  · exact (Eff.bind_of_error hprepare _).trans (Eff.bind_of_error hprepare _).symm
  have hprepared : PreparedFrom client interval prepared :=
    prepareRows_ok (congrArg Prod.fst hprepare)
  rw [← hprepared.start] at hstart
  rw [← hprepared.stop] at hstop
  refine (Eff.bind_of_ok hprepare _).trans (Eq.trans ?_ (Eff.bind_of_ok hprepare _).symm)
  rcases hwrite : onDelta (writeEthereumLogsInsertOnly interval.faults prepared.rows) w' with
    ⟨e | deltaResult, w''⟩
  · exact (Eff.bind_of_error hwrite _).trans (Eff.bind_of_error hwrite _).symm
  refine (Eff.bind_of_ok hwrite _).trans (Eq.trans ?_ (Eff.bind_of_ok hwrite _).symm)
  have hrunner : runDbtCommand vars process interval.settings prepared.start prepared.stop =
      runDbtBuild vars process interval.settings prepared.start prepared.stop :=
    funext fun table => runDbtCommand_eq hstart hstop interval.settings table
  unfold finishRun
  dsimp only
  rw [hrunner]

theorem run_interval_window_text_aligned :
    (runInterval (depositsIn [1, 4]) { plainInputs.interval projectVars (minutes 0) (minutes 60) with
      dbtRunner := runDbtCommand projectVars plainInputs.process } (fresh ())).2.warehouse.flows.length
      = 1 := by
  rw [run_interval_window_text (depositsIn [1, 4]) projectVars plainInputs.process
    (plainInputs.interval projectVars (minutes 0) (minutes 60)) (by decide) (by decide)]
  exact alignedRun_ok.2

end EthereumLogs.Pipeline
