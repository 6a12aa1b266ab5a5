import DurableFlow.Builtin.Parts

/-!
# How dates, times and lengths of time are written
-/

namespace DurableFlow.Builtin

def readInstant (e : Element) : Except Abort Instant := do
  let (seconds, nanos) ← e.asPair "instant"
  let seconds := (← seconds.asLong "instant seconds").toInt
  let nanos ← nanos.asSmall "instant nanos" .uint "nanos"
  orInvalid "instant" s!"{seconds}s {nanos}ns" (Instant.of? seconds nanos.toNat)

def instantCodec : Codec :=
  atomCodec instant.label (fun | .instant t => some (.list [.ofInt t.seconds, .ofInt t.nanos]) | _ => none)
    (fun e => return .instant (← readInstant e))

def readDuration (e : Element) : Except Abort Duration := do
  let (seconds, nanos) ← e.asPair "duration"
  let seconds := (← seconds.asLong "duration seconds").toInt
  let nanos := (← nanos.asLong "duration nanos").toInt
  orInvalid "duration" s!"{seconds}s {nanos}ns" (Duration.of? seconds nanos)

def durationCodec : Codec :=
  atomCodec duration.label
    (fun | .duration d => some (.list [.ofInt d.seconds, .ofInt d.subsecond]) | _ => none)
    (fun e => return .duration (← readDuration e))

def readDate (e : Element) : Except Abort LocalDate := do
  let (y, m, d) ← e.asTriple "local date"
  let y ← y.asSmall "year" .int "year"
  let m ← m.asSmall "month" .uint "month"
  let d ← d.asSmall "day" .uint "day"
  orInvalid "date" s!"{y}-{m}-{d}" (LocalDate.of? y m.toNat d.toNat)

def localDateCodec : Codec :=
  atomCodec localDate.label
    (fun | .date d => some (.list [.ofInt d.year, .ofInt d.month, .ofInt d.day]) | _ => none)
    (fun e => return .date (← readDate e))

def readTime (e : Element) : Except Abort LocalTime := do
  let parts ← e.asTuple "local time" 4
  match ← parts.mapM fun e => e.asSmall "time component" .uint "time component" with
  | [h, m, s, n] =>
    orInvalid "time" s!"{h}:{m}:{s}.{n}" (LocalTime.of? h.toNat m.toNat s.toNat n.toNat)
  | _ => Abort.mismatch "local time" e.kind

def localTimeCodec : Codec :=
  atomCodec localTime.label
    (fun
      | .time t => some (.list [.ofInt t.hour, .ofInt t.minute, .ofInt t.second, .ofInt t.nano])
      | _ => none)
    (fun e => return .time (← readTime e))

def zoneIdCodec : Codec :=
  atomCodec zoneId.label (fun | .zone z => some (.text z.id) | _ => none)
    (fun e => do return .zone (← InvalidValue.lift (ZoneId.of (← e.asText "zone id"))))

def yearCodec : Codec :=
  .single (fun | .int n => .ok (.ofInt n) | _ => wrongValue year.label)
    (fun _ e => return .int (← e.asSmall "year" .int "year"))

def yearMonthCodec : Codec :=
  atomCodec yearMonth.label (fun | .yearMonth m => some (.list [.ofInt m.year, .ofInt m.month]) | _ => none)
    (fun e => do
      let (y, m) ← e.asPair "year-month"
      let y ← y.asSmall "year" .int "year"
      let m ← m.asSmall "month" .uint "month"
      return .yearMonth (← InvalidValue.lift (YearMonth.of y m.toNat)))

def monthDayCodec : Codec :=
  atomCodec monthDay.label (fun | .monthDay d => some (.list [.ofInt d.month, .ofInt d.day]) | _ => none)
    (fun e => do
      let (m, d) ← e.asPair "month-day"
      let m ← m.asSmall "month" .uint "month"
      let d ← d.asSmall "day" .uint "day"
      return .monthDay (← InvalidValue.lift (MonthDay.of m.toNat d.toNat)))

def periodCodec : Codec :=
  atomCodec period.label
    (fun | .period p => some (.list [.ofInt p.years, .ofInt p.months, .ofInt p.days]) | _ => none)
    (fun e => do
      let (y, m, d) ← e.asTriple "period"
      let y ← y.asSmall "years" .int "years"
      let m ← m.asSmall "months" .int "months"
      let d ← d.asSmall "days" .int "days"
      return .period ⟨y, m, d⟩)

/-- A date and time at an offset must also be one in UTC. -/
def checkUtc : List Value → Except Abort Unit
  | [.seq [.atom (.date d), .atom (.time t)], .int offset] =>
    if hasUtc d t offset then .ok ()
    else Abort.mismatch "valid offset date-time" s!"{d.toString} {t.toString}"
  | _ => wrongValue offsetDateTime.label

end DurableFlow.Builtin
