import Audioipc.Devices

/-!
# Stream parameters

What `server.rs` accepts as the parameters of a stream, and what it computes
from them: the size of the shared memory and the latency it asks of cubeb.
The arithmetic is that of a `u32`, which panics where it overflows; for
accepted parameters it does not (`estimateShmAreaSize_ok`, `streamLatency_ok`).
-/

namespace Audioipc

def MAX_CHANNELS : UInt32 := 255
def MIN_RATE : UInt32 := 1000
def MAX_RATE : UInt32 := 768000

def validateStreamParams (p : StreamParams) : Except CubebError Unit :=
  let validFormat := p.format = CUBEB_SAMPLE_S16LE ∨ p.format = CUBEB_SAMPLE_S16BE ∨
    p.format = CUBEB_SAMPLE_FLOAT32LE ∨ p.format = CUBEB_SAMPLE_FLOAT32BE
  if validFormat ∧ 1 ≤ p.channels ∧ p.channels ≤ MAX_CHANNELS ∧
      MIN_RATE ≤ p.rate ∧ p.rate ≤ MAX_RATE then .ok ()
  else .error .invalidParameter

def validateStreamCreateParams (params : StreamCreateParams) : Except CubebError Unit :=
  match params.inputStreamParams, params.outputStreamParams with
  | none, none => .error .invalidParameter
  | some inputParams, none => validateStreamParams inputParams
  | none, some outputParams => validateStreamParams outputParams
  | some inputParams, some outputParams => do
      validateStreamParams inputParams
      validateStreamParams outputParams
      -- rate and sample format must match for input and output of a duplex stream
      if inputParams.rate ≠ outputParams.rate ∨ inputParams.format ≠ outputParams.format then
        throw .invalidParameter

/-- The result of `u32` arithmetic. -/
def checkedU32 (n : Nat) : Except ServerPanic Nat :=
  if n < 2 ^ 32 then return n else throw .overflow

/-- `n & !0xffff`. -/
def clearLow16 (n : Nat) : Nat := n &&& 0xffff0000

/-- One second of audio, rounded up to the nearest 64kB. -/
def estimateShmAreaSize (params : StreamCreateParams) : Except ServerPanic UInt64 := do
  let inFs := (params.inputStreamParams.map StreamParams.frameSizeInBytes).getD 0
  let outFs := (params.outputStreamParams.map StreamParams.frameSizeInBytes).getD 0
  let frameSize := max outFs inFs % 2 ^ 32
  let inRate := (params.inputStreamParams.map (·.rate.toNat)).getD 0
  let outRate := (params.outputStreamParams.map (·.rate.toNat)).getD 0
  let rate := max outRate inRate
  let nbytes ← checkedU32 (rate * frameSize)
  let padded ← checkedU32 (nbytes + 0xffff)
  return .ofNat (clearLow16 padded)

/-- `u32::leading_zeros`. -/
def leadingZeros (v : Nat) : Nat := if v = 0 then 32 else 31 - v.log2

def roundUpPow2 (v : Nat) : Except ServerPanic Nat := do
  if v = 0 then throw .roundUpZero
  let shift := 32 - leadingZeros (v - 1)
  if shift < 32 then return 1 <<< shift else throw .overflow

/-- `u32::clamp`. -/
def clamp (v min max : Nat) : Except ServerPanic Nat :=
  if min ≤ max then return if v < min then min else if max < v then max else v
  else throw .clampRange

/-- The rate from which the latency is computed. -/
def streamRate (params : StreamCreateParams) : Except ServerPanic Nat :=
  match params.outputStreamParams, params.inputStreamParams with
  | some p, _ => pure p.rate.toNat
  | none, some p => pure p.rate.toNat
  | none, none => throw .noRate

/-- The latency that is asked of cubeb. -/
def streamLatency (params : StreamCreateParams) : Except ServerPanic Nat := do
  let rate ← streamRate params
  let minLatency ← roundUpPow2 ((← checkedU32 (5 * rate)) / 1000)
  let maxLatency := rate
  clamp params.latencyFrames.toNat minLatency maxLatency

/-! ## Accepted parameters -/

/-- What `validate_stream_params` checks. -/
structure StreamParams.Valid (p : StreamParams) : Prop where
  channels_pos : 1 ≤ p.channels.toNat
  channels_le : p.channels.toNat ≤ 255
  rate_ge : 1000 ≤ p.rate.toNat
  rate_le : p.rate.toNat ≤ 768000

theorem validateStreamParams_ok {p : StreamParams} (h : validateStreamParams p = .ok ()) :
    p.Valid := by
  unfold validateStreamParams at h
  dsimp only at h
  split at h
  · rename_i hvalid
    obtain ⟨-, hpos, hle, hge, hmax⟩ := hvalid
    rw [UInt32.le_iff_toNat_le] at hpos hle hge hmax
    exact ⟨hpos, hle, hge, hmax⟩
  · cases h

theorem StreamParams.Valid.frameSize {p : StreamParams} (h : p.Valid) :
    1 ≤ p.frameSizeInBytes ∧ p.frameSizeInBytes ≤ 1020 := by
  obtain ⟨hpos, hle, -, -⟩ := h
  unfold frameSizeInBytes
  dsimp only
  split <;> constructor <;> omega

def StreamCreateParams.directions (params : StreamCreateParams) : List StreamParams :=
  params.inputStreamParams.toList ++ params.outputStreamParams.toList

/-- What `validate_stream_create_params` checks. -/
structure StreamCreateParams.Valid (params : StreamCreateParams) : Prop where
  input : ∀ p, params.inputStreamParams = some p → p.Valid
  output : ∀ p, params.outputStreamParams = some p → p.Valid
  some : params.inputStreamParams.isSome ∨ params.outputStreamParams.isSome

theorem StreamCreateParams.Valid.of_mem {params : StreamCreateParams} (h : params.Valid)
    {p : StreamParams} (hp : p ∈ params.directions) : p.Valid := by
  rcases List.mem_append.mp hp with hin | hout
  · exact h.input p (Option.mem_toList.mp hin)
  · exact h.output p (Option.mem_toList.mp hout)

theorem validateStreamCreateParams_ok {params : StreamCreateParams}
    (h : validateStreamCreateParams params = .ok ()) : params.Valid := by
  unfold validateStreamCreateParams at h
  split at h
  · cases h
  · rename_i p hin hout
    have hp := validateStreamParams_ok h
    exact ⟨fun q hq => by simp_all, fun q hq => by simp_all, Or.inl (by simp [hin])⟩
  · rename_i p hin hout
    have hp := validateStreamParams_ok h
    exact ⟨fun q hq => by simp_all, fun q hq => by simp_all, Or.inr (by simp [hout])⟩
  · rename_i p q hin hout
    cases hp : validateStreamParams p with
    | error e => rw [hp] at h; cases h
    | ok u =>
        cases hq : validateStreamParams q with
        | error e => rw [hp, hq] at h; cases h
        | ok u' =>
            have hp := validateStreamParams_ok hp
            have hq := validateStreamParams_ok hq
            exact ⟨fun p' hp' => by simp_all, fun q' hq' => by simp_all, Or.inl (by simp [hin])⟩

/-! ## Their arithmetic -/

theorem checkedU32_ok {n : Nat} (h : n < 2 ^ 32) : checkedU32 n = .ok n := if_pos h

theorem getD_map_le {f : StreamParams → Nat} {p : Option StreamParams} {bound : Nat}
    (h : ∀ q, p = some q → f q ≤ bound) : (p.map f).getD 0 ≤ bound := by
  cases p with
  | none => exact Nat.zero_le _
  | some q => exact h q rfl

theorem le_max_getD (f : StreamParams → Nat) {params : StreamCreateParams} {p : StreamParams}
    (hp : p ∈ params.directions) :
    f p ≤ max ((params.outputStreamParams.map f).getD 0)
      ((params.inputStreamParams.map f).getD 0) := by
  rcases List.mem_append.mp hp with hin | hout
  · rw [Option.mem_toList.mp hin]
    exact Nat.le_max_right ..
  · rw [Option.mem_toList.mp hout]
    exact Nat.le_max_left ..

/-- The mask rounds down to a multiple of 64 KiB. -/
theorem clearLow16_eq {n : Nat} (h : n < 2 ^ 32) : clearLow16 n = n / 2 ^ 16 * 2 ^ 16 := by
  have hmask : (0xffff0000 : Nat) = (2 ^ 16 - 1) * 2 ^ 16 := rfl
  refine Nat.eq_of_testBit_eq fun i => ?_
  rw [clearLow16, hmask, Nat.testBit_and, Nat.testBit_mul_two_pow, Nat.testBit_mul_two_pow,
    Nat.testBit_two_pow_sub_one, Nat.testBit_div_two_pow]
  by_cases hlow : 16 ≤ i
  · rw [Nat.sub_add_cancel hlow]
    by_cases hhigh : i < 32
    · have hin : i - 16 < 16 := by omega
      simp [hlow, hin]
    · have hpow : 2 ^ 32 ≤ 2 ^ i := Nat.pow_le_pow_right (by decide) (by omega)
      simp [Nat.testBit_lt_two_pow (Nat.lt_of_lt_of_le h hpow)]
  · simp [hlow]

/-- Rounding up to whole 64 KiB. -/
theorem clearLow16_spec {n : Nat} (h : n + 0xffff < 2 ^ 32) :
    2 ^ 16 ∣ (UInt64.ofNat (clearLow16 (n + 0xffff))).toNat ∧
      n ≤ (UInt64.ofNat (clearLow16 (n + 0xffff))).toNat := by
  have hlt : (n + 0xffff) / 2 ^ 16 * 2 ^ 16 < 2 ^ 64 := by omega
  rw [clearLow16_eq h, UInt64.toNat_ofNat_of_lt' hlt]
  exact ⟨Nat.dvd_mul_left .., by omega⟩

/-- The shared memory has whole 64 KiB, and room for a second of audio at
the rate and with the frames of any direction. -/
theorem estimateShmAreaSize_ok {params : StreamCreateParams} (h : params.Valid) :
    ∃ size, estimateShmAreaSize params = .ok size ∧ 2 ^ 16 ∣ size.toNat ∧
      ∀ p ∈ params.directions, ∀ q ∈ params.directions,
        p.rate.toNat * q.frameSizeInBytes ≤ size.toNat := by
  have hframe : max ((params.outputStreamParams.map StreamParams.frameSizeInBytes).getD 0)
      ((params.inputStreamParams.map StreamParams.frameSizeInBytes).getD 0) ≤ 1020 :=
    Nat.max_le.mpr ⟨getD_map_le fun q hq => (h.output q hq).frameSize.2,
      getD_map_le fun q hq => (h.input q hq).frameSize.2⟩
  have hrate : max ((params.outputStreamParams.map (·.rate.toNat)).getD 0)
      ((params.inputStreamParams.map (·.rate.toNat)).getD 0) ≤ 768000 :=
    Nat.max_le.mpr ⟨getD_map_le fun q hq => (h.output q hq).rate_le,
      getD_map_le fun q hq => (h.input q hq).rate_le⟩
  have hbytes := Nat.mul_le_mul hrate hframe
  have hcovers : ∀ p ∈ params.directions, ∀ q ∈ params.directions,
      p.rate.toNat * q.frameSizeInBytes ≤
        max ((params.outputStreamParams.map (·.rate.toNat)).getD 0)
          ((params.inputStreamParams.map (·.rate.toNat)).getD 0) *
        max ((params.outputStreamParams.map StreamParams.frameSizeInBytes).getD 0)
          ((params.inputStreamParams.map StreamParams.frameSizeInBytes).getD 0) :=
    fun p hp q hq => Nat.mul_le_mul (le_max_getD (·.rate.toNat) hp)
      (le_max_getD StreamParams.frameSizeInBytes hq)
  unfold estimateShmAreaSize
  dsimp only
  rw [Nat.mod_eq_of_lt (by omega), checkedU32_ok (by omega), ok_bind, checkedU32_ok (by omega),
    ok_bind]
  obtain ⟨hwhole, hroom⟩ := clearLow16_spec (Nat.lt_of_le_of_lt
    (Nat.add_le_add_right hbytes 0xffff) (by decide))
  exact ⟨_, rfl, hwhole, fun p hp q hq => Nat.le_trans (hcovers p hp q hq) hroom⟩

/-- The next power of two is less than twice as large. -/
theorem roundUpPow2_ok {v : Nat} (hv : 2 ≤ v) (hlt : v ≤ 2 ^ 31) :
    ∃ w, roundUpPow2 v = .ok w ∧ v ≤ w ∧ w < 2 * v := by
  have hne : v - 1 ≠ 0 := by omega
  have hlog : (v - 1).log2 < 31 := (Nat.log2_lt hne).mpr (by omega)
  have hle : 2 ^ (v - 1).log2 ≤ v - 1 := Nat.log2_self_le hne
  have hgt : v - 1 < 2 ^ ((v - 1).log2 + 1) := Nat.lt_log2_self
  have hshift : 32 - leadingZeros (v - 1) = (v - 1).log2 + 1 := by
    unfold leadingZeros
    rw [if_neg hne]
    omega
  refine ⟨2 ^ ((v - 1).log2 + 1), ?_, by omega, by rw [Nat.pow_succ]; omega⟩
  unfold roundUpPow2
  rw [if_neg (by omega)]
  dsimp only [bind, Except.bind, pure, Except.pure]
  rw [hshift, if_pos (by omega), Nat.shiftLeft_eq, Nat.one_mul]

theorem clamp_ok (v : Nat) {min max : Nat} (h : min ≤ max) :
    ∃ w, clamp v min max = .ok w ∧ min ≤ w ∧ w ≤ max := by
  unfold clamp
  rw [if_pos h]
  refine ⟨_, rfl, ?_, ?_⟩ <;> (repeat' split) <;> omega

theorem streamRate_ok {params : StreamCreateParams} (h : params.Valid) :
    ∃ p ∈ params.directions, streamRate params = .ok p.rate.toNat := by
  unfold streamRate
  split
  · rename_i p hout
    exact ⟨p, List.mem_append_right _ (Option.mem_toList.mpr hout), rfl⟩
  · rename_i p _ hin
    exact ⟨p, List.mem_append_left _ (Option.mem_toList.mpr hin), rfl⟩
  · rename_i hout hin
    rcases h.some with hsome | hsome
    · rw [hin] at hsome; cases hsome
    · rw [hout] at hsome; cases hsome

/-- The bounds of the latency do not cross, and it lies between them. -/
theorem streamLatency_ok {params : StreamCreateParams} (h : params.Valid) :
    ∃ p ∈ params.directions, ∃ minLatency latency,
      streamRate params = .ok p.rate.toNat ∧ 5 * p.rate.toNat < 2 ^ 32 ∧
      1 ≤ 5 * p.rate.toNat / 1000 ∧ roundUpPow2 (5 * p.rate.toNat / 1000) = .ok minLatency ∧
      minLatency ≤ p.rate.toNat ∧ streamLatency params = .ok latency ∧
      5 * p.rate.toNat / 1000 ≤ latency ∧ latency ≤ p.rate.toNat := by
  obtain ⟨p, hp, hrate⟩ := streamRate_ok h
  obtain ⟨-, -, hge, hle⟩ := h.of_mem hp
  have htwo : 2 ≤ 5 * p.rate.toNat / 1000 := by omega
  obtain ⟨w, hround, hmin, hw⟩ := roundUpPow2_ok htwo (by omega)
  have hrange : w ≤ p.rate.toNat := by omega
  obtain ⟨latency, hclamp, hlow, hhigh⟩ := clamp_ok params.latencyFrames.toNat hrange
  refine ⟨p, hp, w, latency, hrate, by omega, by omega, hround, hrange, ?_,
    Nat.le_trans hmin hlow, hhigh⟩
  unfold streamLatency
  rw [hrate, ok_bind, checkedU32_ok (by omega), ok_bind, hround, ok_bind]
  exact hclamp

end Audioipc
