import DurableFlow.Builtin.Standard
import DurableFlow.Proofs.RoundTrip.Plain

/-!
# Dates and times in their bodies

The parts that a date, a time or a length of time is written in give it back, up to the ends of the range.
A duration can be held as whole seconds and a part of a second that is not negative; it is written as whole
seconds toward zero and a part with the sign of the duration.
-/

namespace DurableFlow

namespace Duration

variable {d : Duration} {n : Int}

theorem seconds_eq (d : Duration) : d.seconds =
    if d.nanos / 1000000000 < 0 ∧ 0 < d.nanos % 1000000000 then d.nanos / 1000000000 + 1
    else d.nanos / 1000000000 := by
  have hsign : ((1000000000 : Nat) : Int).sign = 1 := rfl
  rw [seconds, nanosPerSecond, Int.tdiv_eq_ediv, hsign]
  split_ifs <;> omega

theorem subsecond_eq (d : Duration) : d.subsecond =
    if d.nanos / 1000000000 < 0 ∧ 0 < d.nanos % 1000000000 then d.nanos % 1000000000 - 1000000000
    else d.nanos % 1000000000 := by
  rw [subsecond, nanosPerSecond, Int.tmod_eq_emod]
  split_ifs <;> omega

theorem bounds (h : ofNanos? n = some d) : -limit ≤ d.nanos ∧ d.nanos ≤ limit := by
  rw [ofNanos?] at h
  split_ifs at h with hn
  obtain rfl := Option.some.inj h
  exact hn

theorem seconds_bounds (h : ofNanos? n = some d) :
    -9223372036854775807 ≤ d.seconds ∧ d.seconds ≤ 9223372036854775807 := by
  have hd := bounds h
  rw [limit] at hd
  rw [seconds_eq]
  split_ifs <;> omega

theorem subsecond_bounds (d : Duration) : -1000000000 < d.subsecond ∧ d.subsecond < 1000000000 := by
  rw [subsecond_eq]
  split_ifs <;> omega

theorem of?_seconds_subsecond (h : ofNanos? n = some d) : of? d.seconds d.subsecond = some d := by
  have hd := bounds h
  have hseconds := d.seconds_eq
  have hsubsecond := d.subsecond_eq
  rw [limit] at hd
  -- Rounded toward zero the seconds are in the range by themselves, and the part only leads back.
  have hwhole : ofNanos? (d.seconds * nanosPerSecond) = some ⟨d.seconds * nanosPerSecond⟩ := by
    refine if_pos ?_
    rw [limit, nanosPerSecond]
    split_ifs at hseconds <;> omega
  have hsum : d.seconds * nanosPerSecond + d.subsecond = d.nanos := by
    rw [nanosPerSecond]
    split_ifs at hseconds hsubsecond <;> omega
  rw [of?, hwhole]
  change ofNanos? (d.seconds * nanosPerSecond + d.subsecond) = some d
  rw [hsum]
  exact if_pos (bounds h)

example : of? (-9223372036854775) (-807000000) = some ⟨-limit⟩ := by decide

end Duration

namespace Instant

variable {t : Instant} {seconds : Int} {nanos : Nat}

theorem bounds (h : of? seconds nanos = some t) :
    t = ⟨seconds, nanos⟩ ∧ -9223372036854775808 ≤ seconds ∧ seconds ≤ 9223372036854775807 ∧
      nanos < 2000000000 := by
  have hfirst : (-9223372036854775808 : Int) ≤ first := by decide
  have hlast : last ≤ (9223372036854775807 : Int) := by decide
  rw [of?] at h
  split_ifs at h with ht
  exact ⟨(Option.some.inj h).symm, by omega, by omega, ht.2.2.1⟩

end Instant

namespace LocalDate

variable {x : LocalDate} {year : Int} {month day : Nat}

theorem bounds (h : of? year month day = some x) :
    x = ⟨year, month, day⟩ ∧ -262143 ≤ year ∧ year ≤ 262142 ∧ month ≤ 12 ∧ day ≤ 31 := by
  have hdays : Gregorian.daysInMonth year month ≤ 31 := by
    rw [Gregorian.daysInMonth]
    split_ifs <;> decide
  rw [of?, firstYear, lastYear] at h
  split_ifs at h with hx
  exact ⟨(Option.some.inj h).symm, hx.1, hx.2.1, hx.2.2.2.1, by omega⟩

end LocalDate

namespace LocalTime

variable {t : LocalTime} {hour minute second nano : Nat}

theorem bounds (h : of? hour minute second nano = some t) :
    t = ⟨hour, minute, second, nano⟩ ∧ hour < 24 ∧ minute < 60 ∧ second < 60 ∧ nano < 2000000000 := by
  rw [of?] at h
  split_ifs at h with ht
  exact ⟨(Option.some.inj h).symm, ht.1, ht.2.1, ht.2.2.1, ht.2.2.2.1⟩

end LocalTime

theorem checkMonth_bounds {month : Nat} (h : checkMonth month = .ok ()) : 1 ≤ month ∧ month ≤ 12 := by
  rw [checkMonth] at h
  split_ifs at h with hmonth
  exact hmonth

theorem YearMonth.of_eq {m : YearMonth} {year : Int} {month : Nat} (h : of year month = .ok m) :
    m = ⟨year, month⟩ ∧ 1 ≤ month ∧ month ≤ 12 := by
  rw [of] at h
  cases hmonth : checkMonth month with
  | error e =>
    rw [hmonth] at h
    cases h
  | ok =>
    rw [hmonth] at h
    exact ⟨(Except.ok.inj h).symm, checkMonth_bounds hmonth⟩

theorem MonthDay.of_eq {d : MonthDay} {month day : Nat} (h : of month day = .ok d) :
    d = ⟨month, day⟩ ∧ month ≤ 12 ∧ day ≤ 31 := by
  rw [of] at h
  cases hmonth : checkMonth month with
  | error e =>
    rw [hmonth] at h
    cases h
  | ok =>
    rw [hmonth] at h
    cases hdate : LocalDate.of? 2000 month day with
    | none =>
      rw [hdate] at h
      cases h
    | some x =>
      rw [hdate] at h
      have hx := LocalDate.bounds hdate
      exact ⟨(Except.ok.inj h).symm, hx.2.2.2⟩

theorem ZoneId.of_eq {z : ZoneId} {id : String} (h : of id = .ok z) : z = ⟨id⟩ := by
  rw [of] at h
  split_ifs at h
  exact (Except.ok.inj h).symm

theorem IntKind.holds_iff {k : IntKind} {n : Int} : k.holds n = true ↔ k.low ≤ n ∧ n ≤ k.high := by
  rw [holds, Bool.and_eq_true, decide_eq_true_eq, decide_eq_true_eq]

namespace Element

variable {kind : IntKind}

theorem toInt_ofInt {n : Int} (h : -9223372036854775808 ≤ n) (h' : n ≤ 9223372036854775807) :
    (Int64.ofInt n).toInt = n := by
  rw [Int64.toInt_ofInt_of_le] <;> omega

theorem asSmall_ofInt {n : Int} (hkind : kind.bits ≤ 32) (hn : kind.holds n = true)
    (expected what : String) : (ofInt n).asSmall expected kind what = .ok n := by
  have hbounds : -9223372036854775808 ≤ kind.low ∧ kind.high ≤ 9223372036854775807 := by
    revert hkind
    cases kind <;> decide
  have hrange := IntKind.holds_iff.1 hn
  change (if kind.holds (Int64.ofInt n).toInt then _ else _) = _
  rw [toInt_ofInt (by omega) (by omega), if_pos hn]
  rfl

theorem asSmall_int {n : Int} (hn : IntKind.int.holds n = true) (expected what : String) :
    (ofInt n).asSmall expected .int what = .ok n := by
  have hbits : IntKind.int.bits ≤ 32 := Nat.le_refl 32
  exact asSmall_ofInt hbits hn expected what

theorem asSmall_ofNat {n : Nat} (hn : n ≤ 4294967295) (expected what : String) :
    (ofInt n).asSmall expected .uint what = .ok (n : Int) := by
  have hbits : IntKind.uint.bits ≤ 32 := Nat.le_refl 32
  have hhigh : (n : Int) ≤ 4294967295 := by omega
  exact asSmall_ofInt hbits (IntKind.holds_iff.2 ⟨Int.natCast_nonneg n, hhigh⟩) expected what

theorem asLong_ofInt (n : Int) (expected : String) :
    (ofInt n).asLong expected = .ok (Int64.ofInt n) := rfl

theorem asPair_list (a b : Element) (expected : String) :
    (list [a, b]).asPair expected = .ok (a, b) := rfl

theorem asTriple_list (a b c : Element) (expected : String) :
    (list [a, b, c]).asTriple expected = .ok (a, b, c) := rfl

end Element

namespace Builtin

open Element

theorem bind_ok {α β : Type} (a : α) (f : α → Except Abort β) : (Except.ok a >>= f) = f a := rfl

theorem readInstant_eq {seconds : Int} {nanos : Nat} {t : Instant}
    (h : Instant.of? seconds nanos = some t) :
    readInstant (.list [.ofInt t.seconds, .ofInt t.nanos]) = .ok t := by
  obtain ⟨rfl, hlow, hhigh, hnanos⟩ := Instant.bounds h
  have hsmall := asSmall_ofNat (n := nanos) (by omega)
  simp only [readInstant, asPair_list, asLong_ofInt, hsmall, bind_ok, toInt_ofInt hlow hhigh,
    Int.toNat_natCast, h, orInvalid]

theorem readDuration_eq {n : Int} {d : Duration} (h : Duration.ofNanos? n = some d) :
    readDuration (.list [.ofInt d.seconds, .ofInt d.subsecond]) = .ok d := by
  obtain ⟨hlow, hhigh⟩ := Duration.seconds_bounds h
  obtain ⟨hlow', hhigh'⟩ := d.subsecond_bounds
  have hseconds : (Int64.ofInt d.seconds).toInt = d.seconds := toInt_ofInt (by omega) hhigh
  have hsubsecond : (Int64.ofInt d.subsecond).toInt = d.subsecond := toInt_ofInt (by omega) (by omega)
  simp only [readDuration, asPair_list, asLong_ofInt, bind_ok]
  rw [hseconds, hsubsecond, Duration.of?_seconds_subsecond h, orInvalid]

theorem readDate_eq {year : Int} {month day : Nat} {x : LocalDate}
    (h : LocalDate.of? year month day = some x) :
    readDate (.list [.ofInt x.year, .ofInt x.month, .ofInt x.day]) = .ok x := by
  obtain ⟨rfl, hlow, hhigh, hmonth, hday⟩ := LocalDate.bounds h
  have hyear : -2147483648 ≤ year ∧ year ≤ 2147483647 := by omega
  have hyear' := asSmall_int (IntKind.holds_iff.2 hyear)
  have hmonth' := asSmall_ofNat (n := month) (by omega)
  have hday' := asSmall_ofNat (n := day) (by omega)
  simp only [readDate, asTriple_list, hyear', hmonth', hday', bind_ok, Int.toNat_natCast, h, orInvalid]

theorem readTime_eq {hour minute second nano : Nat} {t : LocalTime}
    (h : LocalTime.of? hour minute second nano = some t) :
    readTime (.list [.ofInt t.hour, .ofInt t.minute, .ofInt t.second, .ofInt t.nano]) = .ok t := by
  obtain ⟨rfl, hhour, hminute, hsecond, hnano⟩ := LocalTime.bounds h
  have htuple : (Element.list [.ofInt hour, .ofInt minute, .ofInt second, .ofInt nano]).asTuple
      "local time" 4 = .ok [.ofInt hour, .ofInt minute, .ofInt second, .ofInt nano] := rfl
  have hhour' := asSmall_ofNat (n := hour) (by omega)
  have hminute' := asSmall_ofNat (n := minute) (by omega)
  have hsecond' := asSmall_ofNat (n := second) (by omega)
  have hnano' := asSmall_ofNat (n := nano) (by omega)
  simp only [readTime, htuple, List.mapM_cons, List.mapM_nil, hhour', hminute', hsecond', hnano',
    bind_ok, pure_bind, Int.toNat_natCast, h, orInvalid]

end Builtin

/-- The codec writes the value as this body and reads the body as the value. -/
inductive Codec.Keeps : Codec → Value → Element → Prop
  | single {write : Value → Except Abort Element}
    {read : (String → Bool) → Element → Except Abort Value} {v : Value} {body : Element}
    (writes : write v = .ok body) (reads : ∀ known, read known body = .ok v) :
    Keeps (.single write read) v body

namespace Builtin

open Element

variable {v : Value} {body : Element}

/-- A value of a type for dates and times that can be built, which is to say that there is a constructor
that checks its parts and gives it. -/
inductive Builds : Builtin → Value → Prop
  | instant {seconds : Int} {nanos : Nat} {t : Instant} (h : Instant.of? seconds nanos = some t) :
    Builds .instant (.atom (.instant t))
  | duration {n : Int} {d : Duration} (h : Duration.ofNanos? n = some d) :
    Builds .duration (.atom (.duration d))
  | localDate {year : Int} {month day : Nat} {x : LocalDate} (h : LocalDate.of? year month day = some x) :
    Builds .localDate (.atom (.date x))
  | localTime {hour minute second nano : Nat} {t : LocalTime}
    (h : LocalTime.of? hour minute second nano = some t) : Builds .localTime (.atom (.time t))
  | localDateTime {date time : Value} (hdate : Builds .localDate date) (htime : Builds .localTime time) :
    Builds .localDateTime (.seq [date, time])
  | zonedDateTime {dateTime zone : Value} {offset : Int} (hdateTime : Builds .localDateTime dateTime)
    (hoffset : Offset.isProper offset = true) (hzone : Builds .zoneId zone) :
    Builds .zonedDateTime (.seq [dateTime, .int offset, zone])
  | zoneId {id : String} {z : ZoneId} (h : ZoneId.of id = .ok z) : Builds .zoneId (.atom (.zone z))
  | offsetTime {time : Value} {offset : Int} (htime : Builds .localTime time)
    (hoffset : Offset.isProper offset = true) : Builds .offsetTime (.seq [time, .int offset])
  | offsetDateTime {date : LocalDate} {time : LocalTime} {offset : Int}
    (hdate : Builds .localDate (.atom (.date date))) (htime : Builds .localTime (.atom (.time time)))
    (hoffset : Offset.isProper offset = true) (hutc : hasUtc date time offset = true) :
    Builds .offsetDateTime (.seq [.seq [.atom (.date date), .atom (.time time)], .int offset])
  | year {n : Int} (h : IntKind.int.holds n = true) : Builds .year (.int n)
  | yearMonth {year : Int} {month : Nat} {m : YearMonth} (hyear : IntKind.int.holds year = true)
    (h : YearMonth.of year month = .ok m) : Builds .yearMonth (.atom (.yearMonth m))
  | monthDay {month day : Nat} {d : MonthDay} (h : MonthDay.of month day = .ok d) :
    Builds .monthDay (.atom (.monthDay d))
  | period {p : Period} (hyears : IntKind.int.holds p.years = true)
    (hmonths : IntKind.int.holds p.months = true) (hdays : IntKind.int.holds p.days = true) :
    Builds .period (.atom (.period p))

theorem keeps_atom {label : String} {write : Atom → Option Element} {read : Element → Except Abort Atom}
    {a : Atom} (hw : write a = some body) (hr : read body = .ok a) :
    (atomCodec label write read).Keeps (.atom a) body := by
  refine .single ?_ fun known => ?_
  · simp only [hw]
  · rw [hr, bind_ok]
    rfl

theorem keeps_zone {id : String} {z : ZoneId} (h : ZoneId.of id = .ok z) :
    zoneIdCodec.Keeps (.atom (.zone z)) (.text z.id) := by
  obtain rfl := ZoneId.of_eq h
  refine keeps_atom rfl ?_
  change (do return Atom.zone (← InvalidValue.lift (ZoneId.of id))) = _
  rw [h]
  rfl

/-- Where a value is written as one element other than a text, this element is a number or a list of up to
four numbers. -/
theorem exists_keeps {b : Builtin} {write : Value → Except Abort Element}
    {read : (String → Bool) → Element → Except Abort Value} (hb : b.codec = .single write read)
    (hzone : b ≠ .zoneId) (hv : b.Builds v) :
    ∃ body, b.codec.Keeps v body ∧ body.depth ≤ 2 ∧ Wire.elementSize body ≤ 60 := by
  cases hv with
  | instant h =>
    refine ⟨_, keeps_atom rfl ?_, Nat.le_of_ble_eq_true rfl, Nat.le_of_ble_eq_true rfl⟩
    rw [readInstant_eq h, bind_ok]
    rfl
  | duration h =>
    refine ⟨_, keeps_atom rfl ?_, Nat.le_of_ble_eq_true rfl, Nat.le_of_ble_eq_true rfl⟩
    rw [readDuration_eq h, bind_ok]
    rfl
  | localDate h =>
    refine ⟨_, keeps_atom rfl ?_, Nat.le_of_ble_eq_true rfl, Nat.le_of_ble_eq_true rfl⟩
    rw [readDate_eq h, bind_ok]
    rfl
  | localTime h =>
    refine ⟨_, keeps_atom rfl ?_, Nat.le_of_ble_eq_true rfl, Nat.le_of_ble_eq_true rfl⟩
    rw [readTime_eq h, bind_ok]
    rfl
  | zoneId h => exact absurd rfl hzone
  | year h =>
    refine ⟨_, .single rfl fun _ => ?_, Nat.le_of_ble_eq_true rfl, Nat.le_of_ble_eq_true rfl⟩
    rw [asSmall_int h, bind_ok]
    rfl
  | @yearMonth year month m hyear h =>
    obtain ⟨rfl, -, hmonth⟩ := YearMonth.of_eq h
    have hyear' := asSmall_int hyear
    have hmonth' := asSmall_ofNat (n := month) (by omega)
    refine ⟨_, keeps_atom rfl ?_, Nat.le_of_ble_eq_true rfl, Nat.le_of_ble_eq_true rfl⟩
    simp only [asPair_list, hyear', hmonth', bind_ok, Int.toNat_natCast, h]
    rfl
  | @monthDay month day d h =>
    obtain ⟨rfl, hmonth, hday⟩ := MonthDay.of_eq h
    have hmonth' := asSmall_ofNat (n := month) (by omega)
    have hday' := asSmall_ofNat (n := day) (by omega)
    refine ⟨_, keeps_atom rfl ?_, Nat.le_of_ble_eq_true rfl, Nat.le_of_ble_eq_true rfl⟩
    simp only [asPair_list, hmonth', hday', bind_ok, Int.toNat_natCast, h]
    rfl
  | period hyears hmonths hdays =>
    have hyears' := asSmall_int hyears
    have hmonths' := asSmall_int hmonths
    have hdays' := asSmall_int hdays
    refine ⟨_, keeps_atom rfl ?_, Nat.le_of_ble_eq_true rfl, Nat.le_of_ble_eq_true rfl⟩
    simp only [asTriple_list, hyears', hmonths', hdays', bind_ok]
    rfl
  | localDateTime | zonedDateTime | offsetTime | offsetDateTime => cases hb

end Builtin

end DurableFlow
