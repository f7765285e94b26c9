import Edk2Rk3576.Efi
import Edk2Rk3576.Lib.Masks
import Mathlib.Tactic.Basic

/-!
# The PCF8563 clock

`LibSetTime` writes a time to the registers of a PCF8563 over I2C and `LibGetTime` reads it back.
The registers hold two decimal digits each, and a flag for the century. Of the year the lower digits
and the century are written: a year before 2000 is not turned down, and is another year in the chip.
Nor are the other fields checked against what their registers hold.
-/

namespace Edk2Rk3576

/-- What the clock keeps of `EFI_TIME`, and its nanosecond. -/
structure EfiTime where
  year : UInt16
  month : UInt8
  day : UInt8
  hour : UInt8
  minute : UInt8
  second : UInt8
  nanosecond : UInt32
  deriving DecidableEq

structure EfiTimeCapabilities where
  resolution : UInt32
  accuracy : UInt32
  setsToZero : Bool

/-- `RTC_DATETIME`. -/
structure RtcDateTime where
  vlSeconds : UInt8
  minutes : UInt8
  hours : UInt8
  days : UInt8
  weekdays : UInt8
  centuryMonths : UInt8
  years : UInt8

def pcf8563DataRegOffset : UInt8 := 2

def pcf8563ClockInvalid : UInt8 := 0x80
def pcf8563SecondsMask : UInt8 := 0x7f
def pcf8563MinutesMask : UInt8 := 0x7f
def pcf8563HoursMask : UInt8 := 0x3f
def pcf8563DaysMask : UInt8 := 0x3f
def pcf8563WeekdaysMask : UInt8 := 0x07
def pcf8563MonthsMask : UInt8 := 0x1f
def pcf8563CenturyMask : UInt8 := 0x80

def epochBase : UInt16 := 2000

/-- The base library's conversions. Outside of what it says they convert they are not known. -/
structure BcdLib where
  decimalToBcd8 : UInt8 → UInt8
  bcdToDecimal8 : UInt8 → UInt8
  decimalToBcd8_eq : ∀ v : UInt8, v.toNat < 100 →
    (decimalToBcd8 v).toNat = v.toNat / 10 * 16 + v.toNat % 10
  bcdToDecimal8_eq : ∀ v : UInt8, v.toNat / 16 ≤ 9 → v.toNat % 16 ≤ 9 →
    (bcdToDecimal8 v).toNat = v.toNat / 16 * 10 + v.toNat % 16

section DateTime

def RtcDateTime.bytes (d : RtcDateTime) : List UInt8 :=
  [d.vlSeconds, d.minutes, d.hours, d.days, d.weekdays, d.centuryMonths, d.years]

def RtcDateTime.ofBytes (bytes : List UInt8) : RtcDateTime where
  vlSeconds := bytes.getD 0 0
  minutes := bytes.getD 1 0
  hours := bytes.getD 2 0
  days := bytes.getD 3 0
  weekdays := bytes.getD 4 0
  centuryMonths := bytes.getD 5 0
  years := bytes.getD 6 0

variable (lib : BcdLib)

/-- The packet of `LibSetTime`, and its century flag where it sets it. -/
def EfiTime.dateTime (t : EfiTime) : RtcDateTime where
  vlSeconds := lib.decimalToBcd8 t.second
  minutes := lib.decimalToBcd8 t.minute
  hours := lib.decimalToBcd8 t.hour
  days := lib.decimalToBcd8 t.day
  weekdays := 0
  centuryMonths :=
    if epochBase + 100 ≤ t.year then lib.decimalToBcd8 t.month ||| pcf8563CenturyMask
    else lib.decimalToBcd8 t.month
  years := lib.decimalToBcd8 (t.year % 100).toUInt8

/-- What `LibGetTime` makes of a valid clock. -/
def RtcDateTime.time (d : RtcDateTime) : EfiTime where
  second := lib.bcdToDecimal8 (d.vlSeconds &&& pcf8563SecondsMask)
  minute := lib.bcdToDecimal8 (d.minutes &&& pcf8563MinutesMask)
  hour := lib.bcdToDecimal8 (d.hours &&& pcf8563HoursMask)
  day := lib.bcdToDecimal8 (d.days &&& pcf8563DaysMask)
  month := lib.bcdToDecimal8 (d.centuryMonths &&& pcf8563MonthsMask)
  year :=
    if d.centuryMonths &&& pcf8563CenturyMask ≠ 0 then
      (lib.bcdToDecimal8 d.years).toUInt16 + epochBase + 100
    else (lib.bcdToDecimal8 d.years).toUInt16 + epochBase
  nanosecond := 0

end DateTime

section Chip

/-- `EFI_I2C_OPERATION`, with what it sends. -/
inductive RtcOperation
  | write (buffer : List UInt8)
  | read (lengthInBytes : ℕ)

/-- The bits that a register has. -/
def pcf8563Bits (reg : ℕ) : UInt8 :=
  match reg with
  | 3 => pcf8563MinutesMask
  | 4 => pcf8563HoursMask
  | 5 => pcf8563DaysMask
  | 6 => pcf8563WeekdaysMask
  | 7 => pcf8563MonthsMask ||| pcf8563CenturyMask
  | _ => 0xff

/-- The chip: where the next access goes, and its registers. -/
structure Pcf8563 where
  address : ℕ
  regs : ℕ → UInt8

/-- What a register shows of what it was set to: bits that it does not have are anything. -/
def pcf8563Shows (unused : ℕ → UInt8) (reg : ℕ) (v : UInt8) : UInt8 :=
  (v &&& pcf8563Bits reg) ||| (unused reg &&& ~~~pcf8563Bits reg)

/-- An operation, and what it receives. A write starts with the address it goes to. -/
def Pcf8563.run (unused : ℕ → UInt8) (c : Pcf8563) : RtcOperation → List UInt8 × Pcf8563
  | .write [] => ([], c)
  | .write (reg :: data) =>
    ([], ⟨reg.toNat + data.length, fun r =>
      if reg.toNat ≤ r ∧ r < reg.toNat + data.length then data.getD (r - reg.toNat) 0
      else c.regs r⟩)
  | .read length =>
    ((List.range length).map fun i =>
        pcf8563Shows unused (c.address + i) (c.regs (c.address + i)),
      { c with address := c.address + length })

def Pcf8563.runAll (unused : ℕ → UInt8) (c : Pcf8563) :
    List RtcOperation → List UInt8 × Pcf8563
  | [] => ([], c)
  | op :: ops =>
    let first := c.run unused op
    let rest := first.2.runAll unused ops
    (first.1 ++ rest.1, rest.2)

end Chip

/-- What a call meets: the library, the build's time, whether the I2C master was found, how its
requests end, and in what state one that fails leaves the chip. -/
structure RtcEnv where
  lib : BcdLib
  buildTime : EfiTime
  i2cMaster : Bool
  status : ℕ → EfiStatus
  torn : ℕ → Pcf8563
  unused : ℕ → UInt8

/-- The chip, and how many requests were started. -/
structure RtcState where
  requests : ℕ
  chip : Pcf8563

structure GetTimeRun where
  status : EfiStatus
  time : Option EfiTime
  capabilities : Option EfiTimeCapabilities
  state : RtcState

section Model

variable (env : RtcEnv)

/-- `mI2cMaster->StartRequest`. -/
def startRequest (ops : List RtcOperation) (s : RtcState) : EfiStatus × List UInt8 × RtcState :=
  if efiError (env.status s.requests) then
    (env.status s.requests, [], ⟨s.requests + 1, env.torn s.requests⟩)
  else
    let done := s.chip.runAll env.unused ops
    (env.status s.requests, done.1, ⟨s.requests + 1, done.2⟩)

def libSetTime (time : EfiTime) (s : RtcState) : EfiStatus × RtcState :=
  if ¬ env.i2cMaster then (efiDeviceError, s)
  else if epochBase + 200 ≤ time.year then (efiDeviceError, s)
  else
    let packet := pcf8563DataRegOffset :: (time.dateTime env.lib).bytes
    let run := startRequest env [.write packet] s
    if efiError run.1 then (efiDeviceError, run.2.2) else (efiSuccess, run.2.2)

/-- Where the clock is not valid it is set to the build's time, whatever comes of it. -/
def libGetTime (time : Option EfiTime) (capabilities : Option EfiTimeCapabilities) (s : RtcState) :
    GetTimeRun :=
  match time with
  | none => ⟨efiInvalidParameter, none, capabilities, s⟩
  | some time =>
    if ¬ env.i2cMaster then ⟨efiDeviceError, some time, capabilities, s⟩
    else
      let run := startRequest env [.write [pcf8563DataRegOffset], .read 7] s
      if efiError run.1 then ⟨efiDeviceError, some time, capabilities, run.2.2⟩
      else
        let dateTime := RtcDateTime.ofBytes run.2.1
        let capabilities := capabilities.map fun _ => ⟨1, 0, true⟩
        if dateTime.vlSeconds &&& pcf8563ClockInvalid ≠ 0 then
          ⟨efiSuccess, some env.buildTime, capabilities,
            (libSetTime env env.buildTime run.2.2).2⟩
        else ⟨efiSuccess, some (dateTime.time env.lib), capabilities, run.2.2⟩

end Model

section Spec

/-- The same date and time of day. -/
structure EfiTime.Same (t t' : EfiTime) : Prop where
  year : t.year = t'.year
  month : t.month = t'.month
  day : t.day = t'.day
  hour : t.hour = t'.hour
  minute : t.minute = t'.minute
  second : t.second = t'.second

/-- Where a time is accepted, it is what is read next, as long as the chip answers. -/
def ReadsBack (t : EfiTime) : Prop :=
  ∀ (env : RtcEnv) (s : RtcState) (buffer : EfiTime) (capabilities : Option EfiTimeCapabilities),
    (libSetTime env t s).1 = efiSuccess →
    efiError (env.status (libSetTime env t s).2.requests) = false →
    (libGetTime env (some buffer) capabilities (libSetTime env t s).2).status = efiSuccess ∧
      ∃ t', (libGetTime env (some buffer) capabilities (libSetTime env t s).2).time = some t' ∧
        t'.Same t

/-- What the registers hold of a time. -/
structure EfiTime.Holdable (t : EfiTime) : Prop where
  year : 2000 ≤ t.year.toNat
  month : t.month.toNat < 20
  day : t.day.toNat < 40
  hour : t.hour.toNat < 40
  minute : t.minute.toNat < 80
  second : t.second.toNat < 80

end Spec

section Registers

variable {env : RtcEnv}

/-- The bits that are read are those that were written. -/
theorem pcf8563Shows_and {unused : ℕ → UInt8} {reg : ℕ} {v m : UInt8}
    (h : pcf8563Bits reg &&& m = m) : pcf8563Shows unused reg v &&& m = v &&& m := by
  rw [← h, pcf8563Shows]
  apply UInt8.toBitVec_inj.1
  ext i hi
  simp only [UInt8.toBitVec_and, UInt8.toBitVec_or, UInt8.toBitVec_not, BitVec.getElem_and,
    BitVec.getElem_or, BitVec.getElem_not]
  cases v.toBitVec[i] <;> cases (pcf8563Bits reg).toBitVec[i] <;>
    cases (unused reg).toBitVec[i] <;> cases m.toBitVec[i] <;> rfl

/-- What the chip shows of a date and time that was written. -/
def RtcEnv.shown (env : RtcEnv) (d : RtcDateTime) : RtcDateTime where
  vlSeconds := pcf8563Shows env.unused 2 d.vlSeconds
  minutes := pcf8563Shows env.unused 3 d.minutes
  hours := pcf8563Shows env.unused 4 d.hours
  days := pcf8563Shows env.unused 5 d.days
  weekdays := pcf8563Shows env.unused 6 d.weekdays
  centuryMonths := pcf8563Shows env.unused 7 d.centuryMonths
  years := pcf8563Shows env.unused 8 d.years

theorem shown_time (d : RtcDateTime) : (env.shown d).time env.lib = d.time env.lib := by
  have hyears : pcf8563Shows env.unused 8 d.years = d.years := by
    have hall := @pcf8563Shows_and env.unused 8 d.years 0xff (by decide)
    rwa [show (0xff : UInt8) = -1 from rfl, UInt8.and_neg_one, UInt8.and_neg_one] at hall
  simp only [RtcDateTime.time, RtcEnv.shown, hyears,
    @pcf8563Shows_and env.unused 2 d.vlSeconds pcf8563SecondsMask (by decide),
    @pcf8563Shows_and env.unused 3 d.minutes pcf8563MinutesMask (by decide),
    @pcf8563Shows_and env.unused 4 d.hours pcf8563HoursMask (by decide),
    @pcf8563Shows_and env.unused 5 d.days pcf8563DaysMask (by decide),
    @pcf8563Shows_and env.unused 7 d.centuryMonths pcf8563MonthsMask (by decide),
    @pcf8563Shows_and env.unused 7 d.centuryMonths pcf8563CenturyMask (by decide)]

/-- A read of the registers, after they were written. -/
theorem read_write (d : RtcDateTime) (c : Pcf8563) :
    ((c.run env.unused (.write (pcf8563DataRegOffset :: d.bytes))).2.runAll env.unused
      [.write [pcf8563DataRegOffset], .read 7]).1 = (env.shown d).bytes := rfl

end Registers

section Calls

variable {env : RtcEnv} {t : EfiTime} {s : RtcState}

theorem startRequest_done {ops : List RtcOperation} (h : efiError (env.status s.requests) = false) :
    startRequest env ops s = (env.status s.requests, (s.chip.runAll env.unused ops).1,
      ⟨s.requests + 1, (s.chip.runAll env.unused ops).2⟩) := by
  rw [startRequest, h]
  rfl

theorem libSetTime_done (hmaster : env.i2cMaster = true) (hyear : ¬ epochBase + 200 ≤ t.year)
    (h : efiError (env.status s.requests) = false) :
    libSetTime env t s = (efiSuccess, ⟨s.requests + 1, (s.chip.run env.unused
      (.write (pcf8563DataRegOffset :: (t.dateTime env.lib).bytes))).2⟩) := by
  unfold libSetTime
  rw [if_neg (not_not.2 hmaster), if_neg hyear]
  simp only [startRequest_done h, h]
  rfl

/-- A time that is accepted was written. -/
theorem of_libSetTime_success (h : (libSetTime env t s).1 = efiSuccess) :
    env.i2cMaster = true ∧ ¬ epochBase + 200 ≤ t.year ∧
      efiError (env.status s.requests) = false := by
  have hne : efiDeviceError ≠ efiSuccess := encodeError_ne_success 7
  unfold libSetTime at h
  by_cases hmaster : env.i2cMaster = true
  · rw [if_neg (not_not.2 hmaster)] at h
    by_cases hyear : epochBase + 200 ≤ t.year
    · rw [if_pos hyear] at h
      exact absurd h hne
    · rw [if_neg hyear] at h
      refine ⟨hmaster, hyear, ?_⟩
      by_contra herror
      rw [Bool.not_eq_false] at herror
      simp only [startRequest, herror, if_true] at h
      exact absurd h hne
  · rw [if_pos hmaster] at h
    exact absurd h hne

/-- What is read after a time was written: the time that the registers show, or the build's time
where they show a clock that is not valid. -/
theorem libGetTime_libSetTime (hset : (libSetTime env t s).1 = efiSuccess)
    (hget : efiError (env.status (libSetTime env t s).2.requests) = false) (buffer : EfiTime)
    (capabilities : Option EfiTimeCapabilities) :
    (libGetTime env (some buffer) capabilities (libSetTime env t s).2).status = efiSuccess ∧
      (libGetTime env (some buffer) capabilities (libSetTime env t s).2).time =
        if (t.dateTime env.lib).vlSeconds &&& pcf8563ClockInvalid ≠ 0 then some env.buildTime
        else some ((t.dateTime env.lib).time env.lib) := by
  obtain ⟨hmaster, hyear, hstatus⟩ := of_libSetTime_success hset
  have hvl : (env.shown (t.dateTime env.lib)).vlSeconds &&& pcf8563ClockInvalid =
      (t.dateTime env.lib).vlSeconds &&& pcf8563ClockInvalid :=
    @pcf8563Shows_and env.unused 2 (t.dateTime env.lib).vlSeconds _ (by decide)
  have hbytes : RtcDateTime.ofBytes (env.shown (t.dateTime env.lib)).bytes =
      env.shown (t.dateTime env.lib) := rfl
  rw [libSetTime_done hmaster hyear hstatus] at hget ⊢
  unfold libGetTime
  simp only [startRequest_done hget, hget, hmaster, read_write, hbytes, hvl, shown_time,
    not_true_eq_false, Bool.false_eq_true, if_false]
  split_ifs <;> exact ⟨rfl, rfl⟩

end Calls

section Digits

variable (lib : BcdLib) {v mask : UInt8} {k : ℕ}

theorem and_mask_toNat (hmask : mask.toNat = 2 ^ (k + 4) - 1) (x : UInt8) :
    (x &&& mask).toNat = x.toNat % 2 ^ (k + 4) := by
  rw [UInt8.toNat_and, hmask, Nat.and_two_pow_sub_one_eq_mod]

theorem bcdToDecimal8_decimalToBcd8 (hv : v.toNat < 100) :
    lib.bcdToDecimal8 (lib.decimalToBcd8 v) = v := by
  have hbcd := lib.decimalToBcd8_eq v hv
  apply UInt8.toNat_inj.1
  rw [lib.bcdToDecimal8_eq _ (by omega) (by omega)]
  omega

/-- The mask of a register keeps a number of its digits. -/
theorem decimalToBcd8_and (hk : k ≤ 3) (hmask : mask.toNat = 2 ^ (k + 4) - 1)
    (hv : v.toNat < 10 * 2 ^ k) : lib.decimalToBcd8 v &&& mask = lib.decimalToBcd8 v := by
  have hpow : 2 ^ k ≤ 2 ^ 3 := Nat.pow_le_pow_right (by decide) hk
  have hbcd := lib.decimalToBcd8_eq v (by omega)
  apply UInt8.toNat_inj.1
  rw [and_mask_toNat hmask]
  apply Nat.mod_eq_of_lt
  rw [hbcd, pow_add]
  omega

theorem register_round_trip (hk : k ≤ 3) (hmask : mask.toNat = 2 ^ (k + 4) - 1)
    (hv : v.toNat < 10 * 2 ^ k) : lib.bcdToDecimal8 (lib.decimalToBcd8 v &&& mask) = v := by
  have hpow : 2 ^ k ≤ 2 ^ 3 := Nat.pow_le_pow_right (by decide) hk
  rw [decimalToBcd8_and lib hk hmask hv, bcdToDecimal8_decimalToBcd8 lib (by omega)]

/-- A number of the digits of a register leaves the bits behind its mask clear. -/
theorem decimalToBcd8_and_eq_zero (hk : k ≤ 3) (hmask : mask.toNat = 2 ^ (k + 4) - 1)
    (hv : v.toNat < 10 * 2 ^ k) {m : UInt8} (hm : mask &&& m = 0) :
    lib.decimalToBcd8 v &&& m = 0 := by
  rw [← decimalToBcd8_and lib hk hmask hv, UInt8.and_assoc, hm, UInt8.and_zero]

theorem or_century_and {x m : UInt8} (hm : pcf8563CenturyMask &&& m = 0) :
    (x ||| pcf8563CenturyMask) &&& m = x &&& m := by
  have hm := congrArg UInt8.toBitVec hm
  apply UInt8.toBitVec_inj.1
  simpa using BitMask.or_and_of_apart (c := x.toBitVec) hm

theorem or_and_self (x m : UInt8) : (x ||| m) &&& m = m := by
  apply UInt8.toBitVec_inj.1
  ext i hi
  simp only [UInt8.toBitVec_and, UInt8.toBitVec_or, BitVec.getElem_and, BitVec.getElem_or]
  cases x.toBitVec[i] <;> cases m.toBitVec[i] <;> rfl

theorem centuryMonths_and (t : EfiTime) :
    (t.dateTime lib).centuryMonths &&& pcf8563MonthsMask =
      lib.decimalToBcd8 t.month &&& pcf8563MonthsMask := by
  simp only [EfiTime.dateTime]
  split
  · exact or_century_and (by decide)
  · rfl

theorem year_mod_toNat (t : EfiTime) : (t.year % 100).toUInt8.toNat = t.year.toNat % 100 := by
  rw [UInt16.toNat_toUInt8, UInt16.toNat_mod]
  change t.year.toNat % 100 % 256 = _
  omega

/-- The two digits of the year, as they are read back. -/
theorem years_round_trip (t : EfiTime) :
    (lib.bcdToDecimal8 (t.dateTime lib).years).toNat = t.year.toNat % 100 := by
  have hmod := year_mod_toNat t
  simp only [EfiTime.dateTime]
  rw [bcdToDecimal8_decimalToBcd8 lib (by omega), hmod]

theorem epochBase_add_200_le {t : EfiTime} : epochBase + 200 ≤ t.year ↔ 2200 ≤ t.year.toNat :=
  UInt16.le_iff_toNat_le

theorem epochBase_add_100_le {t : EfiTime} : epochBase + 100 ≤ t.year ↔ 2100 ≤ t.year.toNat :=
  UInt16.le_iff_toNat_le

theorem century_iff {t : EfiTime} (hmonth : t.month.toNat < 20) :
    (t.dateTime lib).centuryMonths &&& pcf8563CenturyMask ≠ 0 ↔ 2100 ≤ t.year.toNat := by
  have hclear : lib.decimalToBcd8 t.month &&& pcf8563CenturyMask = 0 :=
    @decimalToBcd8_and_eq_zero lib t.month pcf8563MonthsMask 1 (by decide) (by decide) hmonth _
      (by decide)
  rw [← epochBase_add_100_le]
  simp only [EfiTime.dateTime]
  split_ifs with h
  · refine ⟨fun _ => h, fun _ hzero => ?_⟩
    rw [or_and_self] at hzero
    exact absurd hzero (by decide)
  · exact ⟨fun hne => absurd hclear hne, fun hle => absurd hle h⟩

theorem time_year_toNat (d : RtcDateTime) (hyears : (lib.bcdToDecimal8 d.years).toNat < 100) :
    (d.time lib).year.toNat = (lib.bcdToDecimal8 d.years).toNat + 2000 +
      if d.centuryMonths &&& pcf8563CenturyMask ≠ 0 then 100 else 0 := by
  have hsum : ((lib.bcdToDecimal8 d.years).toUInt16 + epochBase).toNat =
      (lib.bcdToDecimal8 d.years).toNat + 2000 := by
    rw [UInt16.toNat_add, UInt8.toNat_toUInt16]
    change ((lib.bcdToDecimal8 d.years).toNat + 2000) % 65536 = _
    omega
  simp only [RtcDateTime.time]
  split_ifs
  · rw [UInt16.toNat_add, hsum]
    change (_ + 100) % 65536 = _
    omega
  · exact hsum

/-- What is written of a time that the registers hold is read as that time. -/
theorem dateTime_time {t : EfiTime} (h : t.Holdable) (hyear : t.year.toNat < 2200) :
    ((t.dateTime lib).time lib).Same t where
  second := @register_round_trip lib t.second pcf8563SecondsMask 3 (by decide) (by decide) h.second
  minute := @register_round_trip lib t.minute pcf8563MinutesMask 3 (by decide) (by decide) h.minute
  hour := @register_round_trip lib t.hour pcf8563HoursMask 2 (by decide) (by decide) h.hour
  day := @register_round_trip lib t.day pcf8563DaysMask 2 (by decide) (by decide) h.day
  month := by
    simp only [RtcDateTime.time]
    rw [centuryMonths_and]
    exact @register_round_trip lib t.month pcf8563MonthsMask 1 (by decide) (by decide) h.month
  year := by
    have hyears := years_round_trip lib t
    have hcentury := century_iff lib h.month
    have hge := h.year
    apply UInt16.toNat_inj.1
    rw [time_year_toNat lib _ (by omega), hyears]
    split_ifs with hflag
    · have := hcentury.1 hflag
      omega
    · have := mt hcentury.2 hflag
      omega

end Digits

section RoundTrip

/-- The conversions as they are on numbers of two digits, on every byte. -/
def decimalLib : BcdLib where
  decimalToBcd8 v := v / 10 * 16 + v % 10
  bcdToDecimal8 v := v / 16 * 10 + v % 16
  decimalToBcd8_eq v hv := by
    rw [UInt8.toNat_add, UInt8.toNat_mul, UInt8.toNat_div, UInt8.toNat_mod]
    change (v.toNat / 10 * 16 % 256 + v.toNat % 10) % 256 = _
    omega
  bcdToDecimal8_eq v _ _ := by
    rw [UInt8.toNat_add, UInt8.toNat_mul, UInt8.toNat_div, UInt8.toNat_mod]
    change (v.toNat / 16 * 10 % 256 + v.toNat % 16) % 256 = _
    omega

/-- A register of digits shows a number of as many digits. -/
theorem decimalLib_lt {v mask : UInt8} {k : ℕ} (hk : k ≤ 3) (hmask : mask.toNat = 2 ^ (k + 4) - 1) :
    (decimalLib.bcdToDecimal8 (decimalLib.decimalToBcd8 v &&& mask)).toNat < 10 * 2 ^ k := by
  have hand := and_mask_toNat hmask (decimalLib.decimalToBcd8 v)
  have hbcd : (decimalLib.decimalToBcd8 v).toNat = (v.toNat / 10 * 16 + v.toNat % 10) % 256 := by
    simp only [decimalLib]
    rw [UInt8.toNat_add, UInt8.toNat_mul, UInt8.toNat_div, UInt8.toNat_mod]
    change (v.toNat / 10 * 16 % 256 + v.toNat % 10) % 256 = _
    omega
  have hlow : (decimalLib.decimalToBcd8 v &&& mask).toNat % 16 ≤ 9 := by
    have hmod : (decimalLib.decimalToBcd8 v).toNat % (2 ^ k * 2 ^ 4) % 16 =
        (decimalLib.decimalToBcd8 v).toNat % 16 := Nat.mod_mul_left_mod _ (2 ^ k) (2 ^ 4)
    rw [hand, pow_add, hmod, hbcd]
    omega
  have hhigh : (decimalLib.decimalToBcd8 v &&& mask).toNat / 16 < 2 ^ k := by
    rw [hand, pow_add]
    have := Nat.mod_lt (decimalLib.decimalToBcd8 v).toNat
      (Nat.pow_pos (by decide) : 0 < 2 ^ (k + 4))
    rw [pow_add] at this
    omega
  have hpow : 2 ^ k ≤ 2 ^ 3 := Nat.pow_le_pow_right (by decide) hk
  rw [decimalLib.bcdToDecimal8_eq _ (by omega) hlow]
  omega

/-- A chip that answers, and was not written yet. -/
def answeringEnv : RtcEnv where
  lib := decimalLib
  buildTime := ⟨2026, 1, 1, 0, 0, 0, 0⟩
  i2cMaster := true
  status _ := efiSuccess
  torn _ := ⟨0, fun _ => 0⟩
  unused _ := 0

/-- A clock that was not written yet. -/
def unwrittenState : RtcState := ⟨0, ⟨0, fun _ => 0⟩⟩

theorem answeringEnv_accepts {t : EfiTime} (hyear : ¬ epochBase + 200 ≤ t.year) :
    (libSetTime answeringEnv t unwrittenState).1 = efiSuccess := by
  rw [libSetTime_done rfl hyear rfl]

/-- Where that chip reads a time back, its registers hold it. -/
theorem holdable_of_readsBack {t : EfiTime} (hyear : ¬ epochBase + 200 ≤ t.year)
    (h : ReadsBack t) : t.Holdable := by
  have hset := answeringEnv_accepts hyear
  obtain ⟨-, t', htime, hsame⟩ := h answeringEnv unwrittenState t none hset rfl
  rw [(libGetTime_libSetTime hset rfl t none).2] at htime
  change (if (t.dateTime decimalLib).vlSeconds &&& pcf8563ClockInvalid ≠ 0 then
    some answeringEnv.buildTime else some ((t.dateTime decimalLib).time decimalLib)) = some t'
      at htime
  split_ifs at htime with hinvalid
  · -- The build's time is at a second of which no register is invalid.
    have hsecond := hsame.second
    rw [← Option.some.inj htime] at hsecond
    simp only [EfiTime.dateTime, ← hsecond] at hinvalid
    exact absurd rfl hinvalid
  · rw [← Option.some.inj htime] at hsame
    have hyears := years_round_trip decimalLib t
    have hyear := time_year_toNat decimalLib (t.dateTime decimalLib) (by omega)
    rw [hsame.year] at hyear
    refine ⟨by omega, ?_, ?_, ?_, ?_, ?_⟩
    · rw [← hsame.month]
      simp only [RtcDateTime.time]
      rw [centuryMonths_and]
      exact @decimalLib_lt t.month pcf8563MonthsMask 1 (by decide) (by decide)
    · rw [← hsame.day]
      exact @decimalLib_lt t.day pcf8563DaysMask 2 (by decide) (by decide)
    · rw [← hsame.hour]
      exact @decimalLib_lt t.hour pcf8563HoursMask 2 (by decide) (by decide)
    · rw [← hsame.minute]
      exact @decimalLib_lt t.minute pcf8563MinutesMask 3 (by decide) (by decide)
    · rw [← hsame.second]
      exact @decimalLib_lt t.second pcf8563SecondsMask 3 (by decide) (by decide)

/-- A time is turned down or read back where its year is past the chip's, or the registers hold it
and its year is not before them. -/
theorem readsBack_iff {t : EfiTime} : ReadsBack t ↔ 2200 ≤ t.year.toNat ∨ t.Holdable := by
  constructor
  · intro h
    by_cases hyear : epochBase + 200 ≤ t.year
    · exact .inl (epochBase_add_200_le.1 hyear)
    · exact .inr (holdable_of_readsBack hyear h)
  · rintro h env s buffer capabilities hset hget
    obtain ⟨-, hyear, -⟩ := of_libSetTime_success hset
    rw [epochBase_add_200_le, Nat.not_le] at hyear
    have hhold : t.Holdable := h.resolve_left (by omega)
    have hvalid : (t.dateTime env.lib).vlSeconds &&& pcf8563ClockInvalid = 0 :=
      @decimalToBcd8_and_eq_zero env.lib t.second pcf8563SecondsMask 3 (by decide) (by decide)
        hhold.second _ (by decide)
    obtain ⟨hstatus, htime⟩ := libGetTime_libSetTime hset hget buffer capabilities
    rw [if_neg (not_not.2 hvalid)] at htime
    exact ⟨hstatus, _, htime, dateTime_time env.lib hhold hyear⟩

/-- The first second of 1999, which is read as that of 2099. -/
def newYear1999 : EfiTime := ⟨1999, 1, 1, 0, 0, 0, 0⟩

theorem newYear1999_not_readsBack : ¬ ReadsBack newYear1999 := by
  intro h
  have hhold := holdable_of_readsBack (by decide) h
  exact absurd hhold.year (by decide)

end RoundTrip

end Edk2Rk3576
