import HwMon.Lib.Prog
import Mathlib.Algebra.Order.Ring.Nat
import Mathlib.Data.List.Basic

/-!
# Telemetry

`cpu_telemetry.c`. Every call to the system is logged, and the system may answer
differently at every place of the log. Both figures come from two samples with one
sleep between them. Floating-point arithmetic is left to a parameter.
-/

namespace HwMon
set_option autoImplicit false

structure FileTime where
  lowDateTime : UInt32
  highDateTime : UInt32

/-- `filetime_to_u64` -/
def filetimeToU64 (ft : FileTime) : UInt64 :=
  ft.highDateTime.toUInt64 <<< 32 ||| ft.lowDateTime.toUInt64

/-- The three times of `GetSystemTimes`. -/
structure SystemTimes where
  idle : FileTime
  kernel : FileTime
  user : FileTime

inductive TelemetryCall where
  | systemTimes
  | counterFrequency
  | counter
  | tsc
  | sleep (milliseconds : UInt32)
  deriving DecidableEq, Repr

/-- The system under the program; none where a call fails. -/
structure TelemetryOs where
  systemTimes : Nat → Option SystemTimes
  counterFrequency : Nat → Option Int64
  counter : Nat → Option Int64
  tsc : Nat → UInt64

/-- The two computations with `double`. -/
structure Doubles (δ : Type) where
  zero : δ
  /-- `(double)busy_delta * 100.0 / (double)total_delta` -/
  percent : UInt64 → UInt64 → δ
  /-- `(uint64_t)((double)tsc_delta / ((double)qpc_delta / (double)qpc_freq))` -/
  hertz : UInt64 → Int64 → Int64 → UInt64

structure CpuTelemetry (δ : Type) where
  frequencyAvailable : Bool := false
  frequencyHz : UInt64 := 0
  utilizationAvailable : Bool := false
  utilizationPercent : δ
  temperatureAvailable : Bool := false
  powerAvailable : Bool := false

abbrev TelemetryM (α : Type) := Prog TelemetryOs (List TelemetryCall) Empty α

/-- A call, answered by what the system says at its place in the log. -/
def telemetryCall {α : Type} (c : TelemetryCall) (f : TelemetryOs → Nat → α) : TelemetryM α :=
  ⟨fun os log => (.ok (f os log.length), log ++ [c])⟩

def getSystemTimes : TelemetryM (Option SystemTimes) := telemetryCall .systemTimes (·.systemTimes)

def queryPerformanceFrequency : TelemetryM (Option Int64) :=
  telemetryCall .counterFrequency (·.counterFrequency)

def queryPerformanceCounter : TelemetryM (Option Int64) := telemetryCall .counter (·.counter)

def rdtscAsm : TelemetryM UInt64 := telemetryCall .tsc (·.tsc)

def sleep (milliseconds : UInt32) : TelemetryM Unit :=
  telemetryCall (.sleep milliseconds) fun _ _ => ()

section Code
variable {δ : Type} (d : Doubles δ)

/-- `busy_delta` -/
def busyDelta (idleDelta totalDelta : UInt64) : UInt64 :=
  if totalDelta > idleDelta then totalDelta - idleDelta else 0

/-- The part of `sample_utilization` behind the two samples. -/
def utilization (first second : SystemTimes) : δ :=
  let idleDelta := filetimeToU64 second.idle - filetimeToU64 first.idle
  let kernelDelta := filetimeToU64 second.kernel - filetimeToU64 first.kernel
  let userDelta := filetimeToU64 second.user - filetimeToU64 first.user
  let totalDelta := kernelDelta + userDelta
  if totalDelta = 0 then d.zero else d.percent (busyDelta idleDelta totalDelta) totalDelta

def sampleUtilization (windowMs : UInt32) : TelemetryM (Option δ) := do
  let first ← getSystemTimes
  match first with
  | none => pure none
  | some first => do
    sleep windowMs
    let second ← getSystemTimes
    match second with
    | none => pure none
    | some second => pure (some (utilization d first second))

/-- The part of `calibrate_tsc_frequency` behind the samples. As `qpcDelta` is positive, the
seconds are positive if the frequency is. -/
def tscFrequency (qpcFreq qpc0 qpc1 : Int64) (tsc0 tsc1 : UInt64) : Option UInt64 :=
  if qpc1 - qpc0 ≤ 0 then none
  else if qpcFreq ≤ 0 then none
  else some (d.hertz (tsc1 - tsc0) (qpc1 - qpc0) qpcFreq)

def calibrateTscFrequency (windowMs : UInt32) : TelemetryM (Option UInt64) := do
  let qpcFreq ← queryPerformanceFrequency
  match qpcFreq with
  | none => pure none
  | some qpcFreq =>
    if qpcFreq = 0 then pure none
    else do
      let qpc0 ← queryPerformanceCounter
      match qpc0 with
      | none => pure none
      | some qpc0 => do
        let tsc0 ← rdtscAsm
        sleep windowMs
        let tsc1 ← rdtscAsm
        let qpc1 ← queryPerformanceCounter
        match qpc1 with
        | none => pure none
        | some qpc1 => pure (tscFrequency d qpcFreq qpc0 qpc1 tsc0 tsc1)

def CpuTelemetry.blank : CpuTelemetry δ := { utilizationPercent := d.zero }

def CpuTelemetry.withUtilization (out : CpuTelemetry δ) : Option δ → CpuTelemetry δ
  | none => out
  | some percent => { out with utilizationAvailable := true, utilizationPercent := percent }

def CpuTelemetry.withFrequency (out : CpuTelemetry δ) : Option UInt64 → CpuTelemetry δ
  | none => out
  | some hz => { out with frequencyAvailable := true, frequencyHz := hz }

/-- `cpu_telemetry_sample` with a record to fill. -/
def cpuTelemetrySample (sampleWindowMs : UInt32) (invariantTsc : Bool) :
    TelemetryM (Bool × CpuTelemetry δ) := do
  let windowMs := if sampleWindowMs = 0 then 100 else sampleWindowMs
  let percent ← sampleUtilization d windowMs
  let out := (CpuTelemetry.blank d).withUtilization percent
  if invariantTsc then do
    let hz ← calibrateTscFrequency d windowMs
    pure (true, out.withFrequency hz)
  else pure (true, out)

end Code

/-!
## What the figures come from
-/

section Figures
variable {δ : Type}

def utilizationCalls (windowMs : UInt32) : List TelemetryCall :=
  [.systemTimes, .sleep windowMs, .systemTimes]

def frequencyCalls (windowMs : UInt32) : List TelemetryCall :=
  [.counterFrequency, .counter, .tsc, .sleep windowMs, .tsc, .counter]

/-- A utilization comes from two samples around one sleep, and is missing only where one of
them failed. The calls start at place `k`. -/
inductive UtilizationFrom (d : Doubles δ) (os : TelemetryOs) (windowMs : UInt32) (k : Nat) :
    Option δ → List TelemetryCall → Prop where
  | sampled (first second : SystemTimes) (h0 : os.systemTimes k = some first)
      (h2 : os.systemTimes (k + 2) = some second) :
      UtilizationFrom d os windowMs k (some (utilization d first second))
        (utilizationCalls windowMs)
  | firstFailed (h0 : os.systemTimes k = none) :
      UtilizationFrom d os windowMs k none [.systemTimes]
  | secondFailed (h2 : os.systemTimes (k + 2) = none) :
      UtilizationFrom d os windowMs k none (utilizationCalls windowMs)

/-- A frequency comes from two samples of both counters around one sleep, the time-stamp
counter inside, and is missing only where a call failed or the other counter did not go
forward. -/
inductive FrequencyFrom (d : Doubles δ) (os : TelemetryOs) (windowMs : UInt32) (k : Nat) :
    Option UInt64 → List TelemetryCall → Prop where
  | calibrated (qpcFreq qpc0 qpc1 : Int64) (h0 : os.counterFrequency k = some qpcFreq)
      (h1 : os.counter (k + 1) = some qpc0) (h5 : os.counter (k + 5) = some qpc1)
      (hfreq : ¬qpcFreq ≤ 0) (hdelta : ¬qpc1 - qpc0 ≤ 0) :
      FrequencyFrom d os windowMs k
        (some (d.hertz (os.tsc (k + 4) - os.tsc (k + 2)) (qpc1 - qpc0) qpcFreq))
        (frequencyCalls windowMs)
  | noFrequency (h0 : os.counterFrequency k = none ∨ os.counterFrequency k = some 0) :
      FrequencyFrom d os windowMs k none [.counterFrequency]
  | firstFailed (h1 : os.counter (k + 1) = none) :
      FrequencyFrom d os windowMs k none [.counterFrequency, .counter]
  | secondFailed (h5 : os.counter (k + 5) = none) :
      FrequencyFrom d os windowMs k none (frequencyCalls windowMs)
  | notForward (qpcFreq qpc0 qpc1 : Int64) (h0 : os.counterFrequency k = some qpcFreq)
      (h1 : os.counter (k + 1) = some qpc0) (h5 : os.counter (k + 5) = some qpc1)
      (hback : qpcFreq ≤ 0 ∨ qpc1 - qpc0 ≤ 0) :
      FrequencyFrom d os windowMs k none (frequencyCalls windowMs)

/-- The time between two samples of one counter. -/
def elapsed (first second : FileTime) : Nat :=
  (filetimeToU64 second).toNat - (filetimeToU64 first).toNat

/-- No counter goes back, and what they add up to can be told in 64 bits. -/
structure SystemTimes.Before (first second : SystemTimes) : Prop where
  idle : filetimeToU64 first.idle ≤ filetimeToU64 second.idle
  kernel : filetimeToU64 first.kernel ≤ filetimeToU64 second.kernel
  user : filetimeToU64 first.user ≤ filetimeToU64 second.user
  fits : elapsed first.kernel second.kernel + elapsed first.user second.user < 2 ^ 64

/-- The share of the time that was not idle; idle time is part of kernel time. -/
def exactUtilization (d : Doubles δ) (first second : SystemTimes) : δ :=
  let total := elapsed first.kernel second.kernel + elapsed first.user second.user
  if total = 0 then d.zero
  else d.percent (UInt64.ofNat (total - elapsed first.idle second.idle)) (UInt64.ofNat total)

/-- The record and the calls of one run of `cpu_telemetry_sample`. -/
structure Telemetered (d : Doubles δ) (os : TelemetryOs) (windowMs : UInt32) (invariantTsc : Bool)
    (log : List TelemetryCall) (out : CpuTelemetry δ) (log' : List TelemetryCall) : Prop where
  run : ∃ percent calls hz more, log' = log ++ calls ++ more ∧
    UtilizationFrom d os windowMs log.length percent calls ∧
    (if invariantTsc = true then
        FrequencyFrom d os windowMs (log.length + calls.length) hz more
      else hz = none ∧ more = []) ∧
    out = ((CpuTelemetry.blank d).withUtilization percent).withFrequency hz
  bounded : out.utilizationPercent = d.zero ∨ ∃ busy total : UInt64,
    out.utilizationPercent = d.percent busy total ∧ total ≠ 0 ∧ busy ≤ total
  exact : ∀ first second, os.systemTimes log.length = some first →
    os.systemTimes (log.length + 2) = some second → first.Before second →
    out.utilizationAvailable = true ∧ out.utilizationPercent = exactUtilization d first second
  noSensor : out.temperatureAvailable = false ∧ out.powerAvailable = false

variable {d : Doubles δ} {os : TelemetryOs} {log : List TelemetryCall} {windowMs : UInt32}

/-- A call behind `calls`, the calls so far. -/
theorem returns_call {α β : Type} {c : TelemetryCall} {f : TelemetryOs → Nat → α}
    {g : α → TelemetryM β} {R : β → List TelemetryCall → Prop} (calls : List TelemetryCall)
    (h : (g (f os (log.length + calls.length))).Returns os (log ++ (calls ++ [c])) R) :
    (telemetryCall c f >>= g).Returns os (log ++ calls) R := by
  rw [← List.append_assoc, ← List.length_append] at h
  obtain ⟨b, log', hrun, hR⟩ := h
  exact ⟨b, log', (Prog.bind_of_ok rfl g).trans hrun, hR⟩

theorem returns_firstCall {α β : Type} {c : TelemetryCall} {f : TelemetryOs → Nat → α}
    {g : α → TelemetryM β} {R : β → List TelemetryCall → Prop}
    (h : (g (f os log.length)).Returns os (log ++ [c]) R) :
    (telemetryCall c f >>= g).Returns os log R := by
  have hnil : log ++ [] = log := List.append_nil log
  rw [← hnil]
  exact returns_call [] h

theorem returns_sampleUtilization : (sampleUtilization d windowMs).Returns os log
    fun percent log' => ∃ calls, log' = log ++ calls ∧
      UtilizationFrom d os windowMs log.length percent calls := by
  apply returns_firstCall
  cases h0 : os.systemTimes log.length with
  | none => exact Prog.returns_pure ⟨_, rfl, .firstFailed h0⟩
  | some first =>
    apply returns_call [TelemetryCall.systemTimes]
    apply returns_call [TelemetryCall.systemTimes, .sleep windowMs]
    cases h2 : os.systemTimes (log.length + 2) with
    | none => exact Prog.returns_pure ⟨_, rfl, .secondFailed h2⟩
    | some second => exact Prog.returns_pure ⟨_, rfl, .sampled first second h0 h2⟩

theorem returns_calibrateTscFrequency : (calibrateTscFrequency d windowMs).Returns os log
    fun hz log' => ∃ calls, log' = log ++ calls ∧
      FrequencyFrom d os windowMs log.length hz calls := by
  apply returns_firstCall
  cases h0 : os.counterFrequency log.length with
  | none => exact Prog.returns_pure ⟨_, rfl, .noFrequency (.inl h0)⟩
  | some qpcFreq =>
    refine Prog.returns_ite (fun hzero => ?_) fun _ => ?_
    · exact Prog.returns_pure ⟨_, rfl, .noFrequency (.inr (h0.trans (congrArg some hzero)))⟩
    apply returns_call [TelemetryCall.counterFrequency]
    cases h1 : os.counter (log.length + 1) with
    | none => exact Prog.returns_pure ⟨_, rfl, .firstFailed h1⟩
    | some qpc0 =>
      apply returns_call [TelemetryCall.counterFrequency, .counter]
      apply returns_call [TelemetryCall.counterFrequency, .counter, .tsc]
      apply returns_call [TelemetryCall.counterFrequency, .counter, .tsc, .sleep windowMs]
      apply returns_call [TelemetryCall.counterFrequency, .counter, .tsc, .sleep windowMs, .tsc]
      cases h5 : os.counter (log.length + 5) with
      | none => exact Prog.returns_pure ⟨_, rfl, .secondFailed h5⟩
      | some qpc1 =>
        refine Prog.returns_pure ⟨_, rfl, ?_⟩
        unfold tscFrequency
        split
        · exact .notForward qpcFreq qpc0 qpc1 h0 h1 h5 (.inr ‹_›)
        · split
          · exact .notForward qpcFreq qpc0 qpc1 h0 h1 h5 (.inl ‹_›)
          · exact .calibrated qpcFreq qpc0 qpc1 h0 h1 h5 ‹_› ‹_›

theorem busyDelta_le (idleDelta totalDelta : UInt64) :
    busyDelta idleDelta totalDelta ≤ totalDelta := by
  unfold busyDelta
  split
  · have hlt : idleDelta < totalDelta := ‹_›
    exact UInt64.sub_le (UInt64.le_of_lt hlt)
  · exact UInt64.zero_le

theorem utilization_bounded (d : Doubles δ) (first second : SystemTimes) :
    utilization d first second = d.zero ∨ ∃ busy total : UInt64,
      utilization d first second = d.percent busy total ∧ total ≠ 0 ∧ busy ≤ total := by
  unfold utilization
  dsimp only
  split
  · exact .inl rfl
  · exact .inr ⟨_, _, rfl, ‹_›, busyDelta_le _ _⟩

theorem utilizationFrom_bounded {k : Nat} {percent : Option δ} {calls : List TelemetryCall}
    (h : UtilizationFrom d os windowMs k percent calls) (hz : Option UInt64) :
    (((CpuTelemetry.blank d).withUtilization percent).withFrequency hz).utilizationPercent =
        d.zero ∨ ∃ busy total : UInt64,
      (((CpuTelemetry.blank d).withUtilization percent).withFrequency hz).utilizationPercent =
        d.percent busy total ∧ total ≠ 0 ∧ busy ≤ total := by
  cases h with
  | sampled first second h0 h2 => cases hz <;> exact utilization_bounded d first second
  | firstFailed h0 => cases hz <;> exact .inl rfl
  | secondFailed h2 => cases hz <;> exact .inl rfl

theorem blank_noSensor (percent : Option δ) (hz : Option UInt64) :
    (((CpuTelemetry.blank d).withUtilization percent).withFrequency hz).temperatureAvailable =
        false ∧
      (((CpuTelemetry.blank d).withUtilization percent).withFrequency hz).powerAvailable =
        false := by
  cases percent <;> cases hz <;> exact ⟨rfl, rfl⟩

theorem busyDelta_eq (idleDelta totalDelta : UInt64) :
    busyDelta idleDelta totalDelta = UInt64.ofNat (totalDelta.toNat - idleDelta.toNat) := by
  unfold busyDelta
  split
  · have hlt : idleDelta < totalDelta := ‹_›
    rw [← UInt64.toNat_sub_of_le _ _ (UInt64.le_of_lt hlt), UInt64.ofNat_toNat]
  · have hle := UInt64.le_iff_toNat_le.mp (UInt64.not_lt.mp ‹_›)
    rw [Nat.sub_eq_zero_of_le hle]
    rfl

theorem toNat_elapsed {first second : FileTime} (h : filetimeToU64 first ≤ filetimeToU64 second) :
    (filetimeToU64 second - filetimeToU64 first).toNat = elapsed first second :=
  UInt64.toNat_sub_of_le _ _ h

theorem utilization_exact (d : Doubles δ) {first second : SystemTimes} (h : first.Before second) :
    utilization d first second = exactUtilization d first second := by
  have hfits := h.fits
  unfold utilization exactUtilization
  dsimp only
  rw [← toNat_elapsed h.kernel, ← toNat_elapsed h.user] at hfits ⊢
  rw [← toNat_elapsed h.idle]
  generalize filetimeToU64 second.kernel - filetimeToU64 first.kernel = kernelDelta at hfits ⊢
  generalize filetimeToU64 second.user - filetimeToU64 first.user = userDelta at hfits ⊢
  have htotal : (kernelDelta + userDelta).toNat = kernelDelta.toNat + userDelta.toNat := by
    rw [UInt64.toNat_add, Nat.mod_eq_of_lt hfits]
  rw [busyDelta_eq, ← htotal, UInt64.ofNat_toNat]
  simp only [← UInt64.toNat_inj, UInt64.toNat_zero]

theorem utilizationFrom_exact {k : Nat} {percent : Option δ} {calls : List TelemetryCall}
    (h : UtilizationFrom d os windowMs k percent calls) (hz : Option UInt64)
    {first second : SystemTimes} (h0 : os.systemTimes k = some first)
    (h2 : os.systemTimes (k + 2) = some second) (hbefore : first.Before second) :
    (((CpuTelemetry.blank d).withUtilization percent).withFrequency hz).utilizationAvailable =
        true ∧
      (((CpuTelemetry.blank d).withUtilization percent).withFrequency hz).utilizationPercent =
        exactUtilization d first second := by
  have hpercent : percent = some (exactUtilization d first second) := by
    cases h with
    | sampled first' second' h0' h2' =>
      obtain rfl := Option.some.inj (h0.symm.trans h0')
      obtain rfl := Option.some.inj (h2.symm.trans h2')
      rw [utilization_exact d hbefore]
    | firstFailed h0' => cases h0.symm.trans h0'
    | secondFailed h2' => cases h2.symm.trans h2'
  subst hpercent
  cases hz <;> exact ⟨rfl, rfl⟩

theorem returns_cpuTelemetrySample (sampleWindowMs : UInt32) (invariantTsc : Bool) :
    (cpuTelemetrySample d sampleWindowMs invariantTsc).Returns os log fun r log' =>
      r.1 = true ∧ Telemetered d os (if sampleWindowMs = 0 then 100 else sampleWindowMs)
        invariantTsc log r.2 log' := by
  refine returns_sampleUtilization.bind fun percent log1 hpercent => ?_
  obtain ⟨calls, rfl, hfrom⟩ := hpercent
  refine Prog.returns_ite (fun htsc => ?_) fun htsc => ?_
  · refine returns_calibrateTscFrequency.bind fun hz log2 hhz => ?_
    obtain ⟨more, rfl, hfreq⟩ := hhz
    rw [List.length_append] at hfreq
    refine Prog.returns_pure ⟨rfl, ⟨⟨percent, calls, hz, more, rfl, hfrom, ?_, rfl⟩,
      utilizationFrom_bounded hfrom hz,
      fun _ _ h0 h2 hbefore => utilizationFrom_exact hfrom hz h0 h2 hbefore,
      blank_noSensor percent hz⟩⟩
    rwa [if_pos htsc]
  · refine Prog.returns_pure ⟨rfl, ⟨⟨percent, calls, none, [], ?_, hfrom, ?_, rfl⟩,
      utilizationFrom_bounded hfrom none,
      fun _ _ h0 h2 hbefore => utilizationFrom_exact hfrom none h0 h2 hbefore,
      blank_noSensor percent none⟩⟩
    · rw [List.append_nil]
    · rw [if_neg htsc]
      exact ⟨rfl, rfl⟩

/-- Every run succeeds, whatever the system says, and marks a figure as available exactly
where all the samples behind it were taken. -/
theorem cpuTelemetrySample_telemetered (d : Doubles δ) (os : TelemetryOs)
    (log : List TelemetryCall) (sampleWindowMs : UInt32) (invariantTsc : Bool) :
    (cpuTelemetrySample d sampleWindowMs invariantTsc).Returns os log fun r log' =>
      r.1 = true ∧ Telemetered d os (if sampleWindowMs = 0 then 100 else sampleWindowMs)
        invariantTsc log r.2 log' :=
  returns_cpuTelemetrySample sampleWindowMs invariantTsc

end Figures
end HwMon
