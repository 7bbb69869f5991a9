import Mathlib.Order.Basic
import CMsgQueue.Lib.Bytes

/-!
# The rate limit of PUBLISH packets

`rate_limit_check` of `enterprise/cmq_mqtt_server.c` keeps a token bucket for an IPv4 address in one
of 1024 entries.  The entry is found by the address modulo 1024, and an address that finds another
one there starts again with a full bucket.
-/

namespace CMsgQueue.Mqtt

open Function

/-- `MQTT_RATE_BUCKETS`. -/
def mqttRateBuckets : Nat := 1024

/-- `struct rate_bucket`. -/
structure RateBucket where
  ip : Nat := 0
  tokens : Nat := 0
  lastRefillMs : Nat := 0

/-- `cmq_mqtt_set_rate_limit`: a capacity and tokens for each second. -/
structure RateLimit where
  capacity : Nat
  refillPerSec : Nat
  capacity_lt : capacity < 2 ^ 32

namespace RateLimit

variable (limit : RateLimit)

/-- `(uint32_t)(delta * g_rate_refill_per_sec / 1000)`, over 64 bits. -/
def refill (delta : Nat) : Nat := delta * limit.refillPerSec % 2 ^ 64 / 1000 % 2 ^ 32

/-- The bucket that `rate_limit_check` takes a token from. -/
def refilled (bucket : RateBucket) (ip nowMs : Nat) : RateBucket :=
  if bucket.ip ≠ ip then ⟨ip, limit.capacity, nowMs⟩
  else
    let delta := (nowMs + 2 ^ 64 - bucket.lastRefillMs) % 2 ^ 64
    if limit.refill delta > 0 then
      let t := (bucket.tokens + limit.refill delta) % 2 ^ 32
      ⟨ip, if t > limit.capacity ∨ t < bucket.tokens then limit.capacity else t, nowMs⟩
    else bucket

def checkBucket (bucket : RateBucket) (ip nowMs : Nat) : RateBucket × Bool :=
  let bucket := limit.refilled bucket ip nowMs
  if bucket.tokens > 0 then ({ bucket with tokens := bucket.tokens - 1 }, true)
  else (bucket, false)

/-- `rate_limit_check`, at the time that it reads from the clock. -/
def rateLimitCheck (buckets : Nat → RateBucket) (ip nowMs : Nat) : (Nat → RateBucket) × Bool :=
  if limit.capacity = 0 then (buckets, true)
  else
    let slot := ip % mqttRateBuckets
    let (bucket, admits) := limit.checkBucket (buckets slot) ip nowMs
    (update buckets slot bucket, admits)

/-- How many packets of an address are admitted from a time on, each packet being an address and
a time. -/
def admitted (ip start : Nat) : (Nat → RateBucket) → List (Nat × Nat) → Nat
  | _, [] => 0
  | buckets, packet :: packets =>
    let (after, admits) := limit.rateLimitCheck buckets packet.1 packet.2
    (if packet.1 = ip ∧ start ≤ packet.2 then admits.toNat else 0) + admitted ip start after packets

/-- What a bucket is worth at a time, in thousandths of a token: the part of a token that the time
since the last refill has earned counts. -/
def worth (bucket : RateBucket) (time : Nat) : Nat :=
  1000 * bucket.tokens +
    (time - bucket.lastRefillMs) * limit.refillPerSec % 2 ^ 64 % (1000 * 2 ^ 32)

variable {limit}

lemma add_mod_mod_le (kept gained word whole : Nat) (positive : 0 < word) :
    (kept + gained) % word % whole ≤ kept % word % whole + gained := by
  have small := Nat.mod_lt kept positive
  rw [← Nat.mod_add_mod]
  generalize kept % word = kept at small ⊢
  by_cases fits : kept + gained < word
  · rw [Nat.mod_eq_of_lt fits, ← Nat.mod_add_mod]
    exact Nat.mod_le _ _
  have wrapped := Nat.mod_le (kept + gained - word) word
  have smaller := Nat.mod_le ((kept + gained) % word) whole
  rw [Nat.mod_eq_sub_mod (Nat.le_of_not_lt fits)] at smaller ⊢
  omega

lemma worth_le (late : bucket.lastRefillMs ≤ start) (later : start ≤ time) :
    limit.worth bucket time ≤ limit.worth bucket start + limit.refillPerSec * (time - start) := by
  have parts : time - bucket.lastRefillMs = start - bucket.lastRefillMs + (time - start) := by omega
  rw [worth, worth, parts, Nat.add_mul, Nat.mul_comm limit.refillPerSec, Nat.add_assoc]
  exact Nat.add_le_add_left (add_mod_mod_le _ _ _ _ (by decide)) _

lemma refilled_spec (room : bucket.tokens < limit.capacity) (late : bucket.lastRefillMs ≤ nowMs)
    (is : limit.refilled bucket ip nowMs = filled) :
    filled.ip = ip ∧ filled.lastRefillMs ≤ nowMs ∧
    limit.worth filled nowMs ≤ 1000 * limit.capacity ∧
    (bucket.ip = ip → limit.worth filled nowMs ≤ limit.worth bucket nowMs) := by
  have delta : (nowMs + 2 ^ 64 - bucket.lastRefillMs) % 2 ^ 64 * limit.refillPerSec % 2 ^ 64 =
      (nowMs - bucket.lastRefillMs) * limit.refillPerSec % 2 ^ 64 := by
    rw [← Nat.mod_mul_mod (nowMs - bucket.lastRefillMs)]
    congr 2
    omega
  subst is
  by_cases own : bucket.ip = ip
  · have := limit.capacity_lt
    simp only [refilled, own, ne_eq, not_true, if_false, refill, delta, worth]
    split
    next => split <;> simp <;> omega
    next => exact ⟨own, late, by omega, fun _ => le_rfl⟩
  simp [refilled, own, worth]

lemma checkBucket_spec (room : bucket.tokens < limit.capacity)
    (late : bucket.lastRefillMs ≤ nowMs)
    (is : limit.checkBucket bucket ip nowMs = (after, admits)) :
    after.ip = ip ∧ after.tokens < limit.capacity ∧ after.lastRefillMs ≤ nowMs ∧
    limit.worth after nowMs + 1000 * admits.toNat ≤ 1000 * limit.capacity ∧ (bucket.ip = ip →
      limit.worth after nowMs + 1000 * admits.toNat ≤ limit.worth bucket nowMs) := by
  rw [checkBucket] at is
  generalize filling : limit.refilled bucket ip nowMs = filled at is
  have spec := refilled_spec room late filling
  obtain ⟨_, _ | _, _⟩ := filled <;> cases is <;>
    simp only [worth, Bool.toNat_true, Bool.toNat_false, Nat.add_sub_cancel] at spec ⊢ <;> omega

/-- The admitted packets are paid by what the bucket is worth and by the time that passes; a bucket
found at the start is worth the capacity. -/
lemma admitted_le_worth (buckets : Nat → RateBucket)
    (at_ : buckets (ip % mqttRateBuckets) = bucket)
    (room : bucket.tokens < limit.capacity) (late : bucket.lastRefillMs ≤ now)
    (sorted : packets.Pairwise (·.2 ≤ ·.2))
    (inside : ∀ packet ∈ packets, now ≤ packet.2 ∧ packet.2 ≤ stop)
    (alone : ∀ packet ∈ packets, start ≤ packet.2 →
      packet.1 % mqttRateBuckets = ip % mqttRateBuckets → packet.1 = ip) :
    1000 * limit.admitted ip start buckets packets ≤
      1000 * limit.capacity + limit.refillPerSec * (stop - start) ∧
    (start ≤ now → bucket.ip = ip → 1000 * limit.admitted ip start buckets packets ≤
      limit.worth bucket now + limit.refillPerSec * (stop - now)) := by
  induction packets generalizing buckets bucket now with
  | nil => exact ⟨Nat.zero_le _, fun _ _ => Nat.zero_le _⟩
  | cons packet packets ih =>
    rw [List.pairwise_cons] at sorted
    obtain ⟨alone, others⟩ := List.forall_mem_cons.mp alone
    obtain ⟨⟨soon, last⟩, inside⟩ := List.forall_mem_cons.mp inside
    rw [admitted, rateLimitCheck, if_neg (by omega)]
    by_cases here : packet.1 % mqttRateBuckets = ip % mqttRateBuckets
    · rcases is : limit.checkBucket bucket packet.1 packet.2 with ⟨after, _⟩
      obtain ⟨owned, left, done, _, paid⟩ := checkBucket_spec room (late.trans soon) is
      have rest := ih _ (update_self _ after buckets) left done sorted.2
        (fun later mem => ⟨sorted.1 later mem, (inside later mem).2⟩) others
      simp only [here, at_, is]
      -- Before `start` the entry may change hands: its tokens stay below the capacity.
      by_cases early : start ≤ packet.2
      · have own := alone early here
        have rest := rest.2 early (owned.trans own)
        have grown := limit.worth_le late soon
        have shorter := Nat.mul_le_mul_left limit.refillPerSec (Nat.sub_le_sub_left early stop)
        have whole : limit.refillPerSec * (stop - packet.2) +
            limit.refillPerSec * (packet.2 - now) = limit.refillPerSec * (stop - now) := by
          rw [← Nat.mul_add, Nat.sub_add_sub_cancel last soon]
        rw [if_pos ⟨own, early⟩]
        exact ⟨by omega, fun _ same => by have := paid (same.trans own.symm); omega⟩
      simp only [early, and_false, if_false, Nat.zero_add]
      exact ⟨rest.1, fun begun => (early (begun.trans soon)).elim⟩
    have apart : packet.1 ≠ ip := fun own => here (by rw [own])
    simpa [apart] using
      ih _ ((update_of_ne (Ne.symm here) _ _).trans at_) room late sorted.2 inside others

/-- The packets of an address that are admitted in an interval are at most the capacity and the
tokens of its length, if no other address of its entry sends in it. -/
theorem admitted_le (limit : RateLimit) (positive : 0 < limit.capacity) (ip start length : Nat)
    (packets : List (Nat × Nat)) (sorted : packets.Pairwise (·.2 ≤ ·.2))
    (upto : ∀ packet ∈ packets, packet.2 ≤ start + length)
    (alone : ∀ packet ∈ packets, start ≤ packet.2 →
      packet.1 % mqttRateBuckets = ip % mqttRateBuckets → packet.1 = ip) :
    1000 * limit.admitted ip start (fun _ => {}) packets ≤
      1000 * limit.capacity + limit.refillPerSec * length := by
  have bound := (admitted_le_worth (fun _ => {}) rfl positive (Nat.zero_le 0) sorted
    (fun packet mem => ⟨Nat.zero_le _, upto packet mem⟩) alone).1
  rwa [Nat.add_sub_cancel_left] at bound

theorem admitted_le_one_packet :
    1000 * admitted ⟨1, 1000, by decide⟩ 1 4 (fun _ => {}) [(1025, 0), (1, 5), (2, 5)] ≤
      1000 * 1 + 1000 * 2 :=
  admitted_le ⟨1, 1000, by decide⟩ (by decide) 1 4 2 _ (by decide) (by decide) (by decide)

/-- Another address of the entry fills the bucket again: a second packet is admitted at once. -/
theorem shared_bucket_admits :
    let packets := [(1, 0), (1025, 0), (1, 0)]
    packets.Pairwise (·.2 ≤ ·.2) ∧
    ¬ 1000 * admitted ⟨1, 0, by decide⟩ 1 0 (fun _ => {}) packets ≤ 1000 * 1 + 0 * 0 := by
  decide

end RateLimit

end CMsgQueue.Mqtt
