import ResponseBandwidthLimiter.Backends.Approximate
import ResponseBandwidthLimiter.Backends.Redis.Storage
import ResponseBandwidthLimiter.Collections.Fields

open collections
open response_bandwidth_limiter.base response_bandwidth_limiter.redis

namespace response_bandwidth_limiter.counter_keys

/-- A text that begins with the field of a rule index. -/
def Numbered (text : String) : Prop :=
  ∃ rule_index : Nat, text = toString rule_index ∨ ∃ rest, text = join (toString rule_index) rest

/-- A text that begins with the field of a generation and goes on, if at all,
    with the one of a rule index. -/
def Versioned (text : String) : Prop :=
  ∃ generation : Nat, 0 < generation ∧
    (text = "v" ++ toString generation ∨ ∃ rest, text = join ("v" ++ toString generation) rest ∧ Numbered rest)

theorem field_generation (generation : Nat) : Field ("v" ++ toString generation) := by
  intro hcolon
  rw [String.toList_append, List.mem_append] at hcolon
  rcases hcolon with hletter | hdigits
  · revert hletter
    decide
  · exact field_nat generation hdigits

theorem generation_ne_index (generation rule_index : Nat) : "v" ++ toString generation ≠ toString rule_index := by
  intro heq
  have hletter : 'v' ∈ (toString rule_index).toList := by
    rw [← heq, String.toList_append]
    exact List.mem_append_left _ (by decide)
  have hdigit := digit_of_mem_repr hletter
  revert hdigit
  decide

/-- The part of an approximate key behind the name of the handler. -/
def approx_tail (counter : Nat × String × ℤ) : String :=
  join (toString counter.1) (join counter.2.1 (toString counter.2.2))

theorem build_approx_counter_key_eq (request_key handler_name : String) (rule_index : Nat) (bucket : ℤ) :
    build_approx_counter_key request_key handler_name rule_index bucket =
      (APPROX_COUNTER_PREFIX ++ ":") ++ join handler_name (approx_tail (rule_index, request_key, bucket)) := by
  simp only [build_approx_counter_key, approx_tail, join, String.append_assoc]

theorem starts_with_approx_counter_key (request_key handler_name : String) (rule_index : Nat) (bucket : ℤ) :
    starts_with (build_approx_counter_key request_key handler_name rule_index bucket)
      (APPROX_COUNTER_PREFIX ++ ":") = true := by
  rw [build_approx_counter_key_eq]
  exact starts_with_append _ _

theorem approx_tail_injective (x y : Nat × String × ℤ) (h : approx_tail x = approx_tail y) : x = y := by
  obtain ⟨hindex, hrest⟩ := ((field_nat x.1).join_left_inj (field_nat y.1)).mp h
  obtain ⟨hkey, hbucket⟩ := ((field_int x.2.2).join_right_inj (field_int y.2.2)).mp hrest
  exact Prod.ext (Nat.repr_injective hindex) (Prod.ext hkey (Int.repr_injective hbucket))

theorem approx_overlaps_iff {first second : String} :
    Overlaps approx_tail first second ↔ ∃ surplus, second = join first surplus ∧ Numbered surplus := by
  constructor
  · rintro ⟨surplus, hname, x, y, htail⟩
    refine ⟨surplus, hname, x.1, ?_⟩
    rcases (field_nat x.1).join_eq_join_iff.mp htail with ⟨hindex, -⟩ | ⟨rest, hrest, -⟩
    · exact Or.inl hindex.symm
    · exact Or.inr ⟨rest, hrest⟩
  · rintro ⟨surplus, hname, rule_index, rfl | ⟨rest, rfl⟩⟩
    · refine ⟨_, hname, (rule_index, join (toString 0) "", 0), (0, "", 0), ?_⟩
      simp only [approx_tail, ← join_assoc]
    · refine ⟨_, hname, (rule_index, join rest (join (toString 0) ""), 0), (0, "", 0), ?_⟩
      simp only [approx_tail, ← join_assoc]

/-- What a counter in Redis is for, next to the name of the handler: its
    generation, the rule index and the request key. -/
abbrev RedisCounter := Nat × Nat × String

/-- The part of a key in Redis behind the name of the handler. -/
def redis_tail (key_tail : String → String) (counter : RedisCounter) : String :=
  let numbered := join (toString counter.2.1) (key_tail counter.2.2)
  if counter.1 > 0 then join ("v" ++ toString counter.1) numbered else numbered

/-- `_handler_generations.get(handler_name, 0)`. -/
def generation {V : Type} (self : RedisStorage V) (handler_name : String) : Nat :=
  (self.handler_generations.get? handler_name).getD 0

/-- The text of a request key in a counter key. -/
def key_tail (hexdigest : String → String) (key_hash : Bool) (request_key : String) : String :=
  if key_hash then hexdigest request_key else request_key

theorem build_counter_key_eq {V : Type} (hexdigest : String → String) (self : RedisStorage V)
    (request_key handler_name : String) (rule_index : Nat) :
    self.build_counter_key hexdigest request_key handler_name rule_index =
      (self.key_prefix ++ ":counter:") ++ join handler_name
        (redis_tail (key_tail hexdigest self.key_hash) (generation self handler_name, rule_index, request_key)) := by
  simp only [RedisStorage.build_counter_key, redis_tail, key_tail, generation, join]
  split
  · simp only [String.append_assoc]
    rfl
  · simp only [String.append_assoc]

variable {tails : String → String}

theorem redis_tail_zero (rule_index : Nat) (request_key : String) :
    redis_tail tails (0, rule_index, request_key) = join (toString rule_index) (tails request_key) := rfl

theorem redis_tail_of_pos {generation : Nat} (hpos : 0 < generation) (rule_index : Nat) (request_key : String) :
    redis_tail tails (generation, rule_index, request_key) =
      join ("v" ++ toString generation) (join (toString rule_index) (tails request_key)) := if_pos hpos

theorem redis_tail_injective (htails : ∀ first second, tails first = tails second → first = second)
    (x y : RedisCounter) (h : redis_tail tails x = redis_tail tails y) : x = y := by
  obtain ⟨first, i, k⟩ := x
  obtain ⟨second, j, l⟩ := y
  rcases Nat.eq_zero_or_pos first with rfl | hfirst <;> rcases Nat.eq_zero_or_pos second with rfl | hsecond
  · obtain ⟨hindex, htail⟩ := ((field_nat i).join_left_inj (field_nat j)).mp h
    rw [Nat.repr_injective hindex, htails k l htail]
  · rw [redis_tail_zero, redis_tail_of_pos hsecond] at h
    exact absurd (((field_nat i).join_left_inj (field_generation second)).mp h).1.symm
      (generation_ne_index second i)
  · rw [redis_tail_of_pos hfirst, redis_tail_zero] at h
    exact absurd (((field_generation first).join_left_inj (field_nat j)).mp h).1 (generation_ne_index first j)
  · rw [redis_tail_of_pos hfirst, redis_tail_of_pos hsecond] at h
    obtain ⟨hgeneration, hrest⟩ := ((field_generation first).join_left_inj (field_generation second)).mp h
    obtain ⟨hindex, htail⟩ := ((field_nat i).join_left_inj (field_nat j)).mp hrest
    rw [Nat.repr_injective (append_left_injective hgeneration), Nat.repr_injective hindex, htails k l htail]

/-- A name overlaps another one when it goes on after it like a counter key. -/
theorem redis_overlaps_iff {first second : String} :
    Overlaps (redis_tail id) first second ↔
      ∃ surplus, second = join first surplus ∧ (Numbered surplus ∨ Versioned surplus) := by
  constructor
  · rintro ⟨surplus, hname, ⟨current, i, k⟩, y, htail⟩
    refine ⟨surplus, hname, ?_⟩
    rcases Nat.eq_zero_or_pos current with rfl | hpos
    · rcases (field_nat i).join_eq_join_iff.mp htail with ⟨hindex, -⟩ | ⟨rest, hrest, -⟩
      · exact Or.inl ⟨i, Or.inl hindex.symm⟩
      · exact Or.inl ⟨i, Or.inr ⟨rest, hrest⟩⟩
    · rw [redis_tail_of_pos hpos] at htail
      rcases (field_generation current).join_eq_join_iff.mp htail with ⟨hversion, -⟩ | ⟨rest, hrest, htail⟩
      · exact Or.inr ⟨current, hpos, Or.inl hversion.symm⟩
      · refine Or.inr ⟨current, hpos, Or.inr ⟨rest, hrest, i, ?_⟩⟩
        rcases (field_nat i).join_eq_join_iff.mp htail with ⟨hindex, -⟩ | ⟨behind, hbehind, -⟩
        · exact Or.inl hindex.symm
        · exact Or.inr ⟨behind, hbehind⟩
  · rintro ⟨surplus, hname, ⟨i, rfl | ⟨rest, rfl⟩⟩ | ⟨current, hpos, rfl | ⟨rest, rfl, i, rfl | ⟨behind, rfl⟩⟩⟩⟩
    · exact ⟨_, hname, (0, i, join (toString 0) ""), (0, 0, ""), by simp only [redis_tail_zero, id_eq]⟩
    · refine ⟨_, hname, (0, i, join rest (join (toString 0) "")), (0, 0, ""), ?_⟩
      simp only [redis_tail_zero, id_eq, join_assoc]
    · exact ⟨_, hname, (current, 0, ""), (0, 0, ""), by rw [redis_tail_of_pos hpos, redis_tail_zero]⟩
    · refine ⟨_, hname, (current, i, join (toString 0) ""), (0, 0, ""), ?_⟩
      simp only [redis_tail_of_pos hpos, redis_tail_zero, id_eq, join_assoc]
    · refine ⟨_, hname, (current, i, join behind (join (toString 0) "")), (0, 0, ""), ?_⟩
      simp only [redis_tail_of_pos hpos, redis_tail_zero, id_eq, join_assoc]

/-- With hashed request keys only the generation can be taken for a part of a
    name. -/
theorem redis_hashed_overlaps_iff (hfield : ∀ request_key, Field (tails request_key)) {first second : String} :
    Overlaps (redis_tail tails) first second ↔
      ∃ generation : Nat, 0 < generation ∧ second = join first ("v" ++ toString generation) := by
  constructor
  · rintro ⟨surplus, hname, ⟨current, i, k⟩, ⟨other, j, l⟩, htail⟩
    have hend : ∃ beginning, redis_tail tails (other, j, l) = join beginning (tails l) := by
      rcases Nat.eq_zero_or_pos other with rfl | hpos
      · exact ⟨_, redis_tail_zero j l⟩
      · exact ⟨_, (redis_tail_of_pos hpos j l).trans (join_assoc _ _ _)⟩
    obtain ⟨beginning, hbeginning⟩ := hend
    rcases Nat.eq_zero_or_pos current with rfl | hpos
    · rw [redis_tail_zero, hbeginning, join_assoc] at htail
      have hindex := (((hfield k).join_right_inj (hfield l)).mp htail).1
      exact absurd (hindex ▸ field_nat i) (not_field_join surplus beginning)
    · rw [redis_tail_of_pos hpos] at htail
      rcases (field_generation current).join_eq_join_iff.mp htail with ⟨hversion, -⟩ | ⟨rest, -, htail⟩
      · exact ⟨current, hpos, hversion ▸ hname⟩
      · rw [hbeginning, join_assoc] at htail
        have hindex := (((hfield k).join_right_inj (hfield l)).mp htail).1
        exact absurd (hindex ▸ field_nat i) (not_field_join rest beginning)
  · rintro ⟨current, hpos, hname⟩
    exact ⟨_, hname, (current, 0, ""), (0, 0, ""), by rw [redis_tail_of_pos hpos, redis_tail_zero]⟩

section Isolation

variable {V : Type}

/-- The keys of two handlers in Redis tell everything about their counters, in
    any two states of a storage. -/
def RedisIsolated (V : Type) (hexdigest : String → String) (key_hash : Bool) (first second : String) : Prop :=
  ∀ (self other : RedisStorage V) (request_key other_request_key : String) (rule_index other_index : Nat),
    self.key_hash = key_hash → other.key_hash = key_hash → self.key_prefix = other.key_prefix →
    self.build_counter_key hexdigest request_key first rule_index =
      other.build_counter_key hexdigest other_request_key second other_index →
    (first, generation self first, rule_index, request_key) =
      (second, generation other second, other_index, other_request_key)

/-- The same for the approximate counters. -/
def ApproxIsolated (first second : String) : Prop :=
  ∀ (request_key other_request_key : String) (rule_index other_index : Nat) (bucket other_bucket : ℤ),
    build_approx_counter_key request_key first rule_index bucket =
      build_approx_counter_key other_request_key second other_index other_bucket →
    (first, rule_index, request_key, bucket) = (second, other_index, other_request_key, other_bucket)

/-- The second name is the first one and what can stand behind it in a key. -/
def Confusable (key_hash : Bool) (first second : String) : Prop :=
  match key_hash with
  | true => ∃ generation : Nat, 0 < generation ∧ second = join first ("v" ++ toString generation)
  | false => ∃ surplus, second = join first surplus ∧ (Numbered surplus ∨ Versioned surplus)

/-- A storage that has come to some generation of a handler. -/
def at_generation (key_hash : Bool) (handler_name : String) (current : Nat) : RedisStorage V :=
  { RedisStorage.default with key_hash, handler_generations := OrderedDict.empty.set handler_name current }

@[simp] theorem generation_at_generation (key_hash : Bool) (handler_name : String) (current : Nat) :
    generation (at_generation key_hash handler_name current : RedisStorage V) handler_name = current := by
  simp [generation, at_generation]

theorem redisIsolated_iff_join {hexdigest : String → String} {key_hash : Bool} {first second : String} :
    RedisIsolated V hexdigest key_hash first second ↔
      ∀ x y, join first (redis_tail (key_tail hexdigest key_hash) x) =
        join second (redis_tail (key_tail hexdigest key_hash) y) → first = second ∧ x = y := by
  constructor
  · intro h x y heq
    have hsame := h (at_generation key_hash first x.1) (at_generation key_hash second y.1) x.2.2 y.2.2 x.2.1 y.2.1
      rfl rfl rfl (by
        rw [build_counter_key_eq, build_counter_key_eq, generation_at_generation, generation_at_generation]
        exact congrArg _ heq)
    rw [generation_at_generation, generation_at_generation] at hsame
    simp only [Prod.mk.injEq] at hsame
    exact ⟨hsame.1, Prod.ext hsame.2.1 (Prod.ext hsame.2.2.1 hsame.2.2.2)⟩
  · intro h self other request_key other_request_key rule_index other_index hself hother hprefix heq
    rw [build_counter_key_eq, build_counter_key_eq, hself, hother, hprefix] at heq
    obtain ⟨rfl, hcounter⟩ := h _ _ (append_left_injective heq)
    exact congrArg (Prod.mk first) hcounter

theorem redisIsolated_iff {hexdigest : String → String}
    (hinjective : ∀ first second, hexdigest first = hexdigest second → first = second)
    (hfield : ∀ text, Field (hexdigest text)) (key_hash : Bool) (first second : String) :
    RedisIsolated V hexdigest key_hash first second ↔
      ¬ Confusable key_hash first second ∧ ¬ Confusable key_hash second first := by
  rw [redisIsolated_iff_join]
  cases key_hash with
  | true =>
    rw [show key_tail hexdigest true = hexdigest from rfl, join_isolates_iff (redis_tail_injective hinjective),
      redis_hashed_overlaps_iff hfield, redis_hashed_overlaps_iff hfield]
    rfl
  | false =>
    have htails : ∀ x y, redis_tail id x = redis_tail id y → x = y := redis_tail_injective fun _ _ => id
    rw [show key_tail hexdigest false = id from rfl, join_isolates_iff htails, redis_overlaps_iff,
      redis_overlaps_iff]
    rfl

theorem approxIsolated_iff (first second : String) :
    ApproxIsolated first second ↔
      ¬ (∃ surplus, second = join first surplus ∧ Numbered surplus) ∧
        ¬ ∃ surplus, first = join second surplus ∧ Numbered surplus := by
  rw [← approx_overlaps_iff, ← approx_overlaps_iff, ← join_isolates_iff approx_tail_injective]
  constructor
  · intro h x y heq
    have hsame := h x.2.1 y.2.1 x.1 y.1 x.2.2 y.2.2
      (by rw [build_approx_counter_key_eq, build_approx_counter_key_eq]; exact congrArg _ heq)
    simp only [Prod.mk.injEq] at hsame
    exact ⟨hsame.1, Prod.ext hsame.2.1 (Prod.ext hsame.2.2.1 hsame.2.2.2)⟩
  · intro h request_key other_request_key rule_index other_index bucket other_bucket heq
    rw [build_approx_counter_key_eq, build_approx_counter_key_eq] at heq
    obtain ⟨rfl, hcounter⟩ := h _ _ (append_left_injective heq)
    exact congrArg (Prod.mk first) hcounter

/-- The keys of two handlers keep all their counters apart exactly when neither
    name is the other one, a colon, and what can stand behind it in a key. -/
theorem counter_keys_isolated_iff {hexdigest : String → String}
    (hinjective : ∀ first second, hexdigest first = hexdigest second → first = second)
    (hfield : ∀ text, Field (hexdigest text)) (key_hash : Bool) (first second : String) :
    (RedisIsolated V hexdigest key_hash first second ↔
      ¬ Confusable key_hash first second ∧ ¬ Confusable key_hash second first) ∧
    (ApproxIsolated first second ↔
      ¬ (∃ surplus, second = join first surplus ∧ Numbered surplus) ∧
        ¬ ∃ surplus, first = join second surplus ∧ Numbered surplus) :=
  ⟨redisIsolated_iff hinjective hfield key_hash first second, approxIsolated_iff first second⟩

end Isolation

/-- An injective digest without colons. -/
def numeral_digest (text : String) : String := toString (Encodable.encode (text.toList.map Char.toNat))

/-- A handler named like a rule of another one. -/
theorem report_names_confused :
    ¬ RedisIsolated PlainValue numeral_digest false "report" "report:0" ∧ ¬ ApproxIsolated "report" "report:0" := by
  have hinjective : ∀ first second, numeral_digest first = numeral_digest second → first = second := by
    intro first second heq
    have hcodes := Encodable.encode_injective (Nat.repr_injective heq)
    exact String.toList_inj.mp (List.map_injective_iff.mpr (fun _ _ => Char.toNat_inj.mp) hcodes)
  obtain ⟨hredis, happrox⟩ :=
    counter_keys_isolated_iff (V := PlainValue) hinjective (fun _ => field_nat _) false "report" "report:0"
  have hnumbered : Numbered "0" := ⟨0, Or.inl rfl⟩
  rw [hredis, happrox]
  exact ⟨fun h => h.1 ⟨"0", rfl, Or.inl hnumbered⟩, fun h => h.1 ⟨"0", rfl, hnumbered⟩⟩

/-- A hit of one client on one handler counts for another client on another
    handler. -/
theorem report_counters_collide :
    ¬ (∀ (self : RedisStorage PlainValue) (handler_name other_name request_key other_request_key : String)
        (rule_index other_index : Nat), handler_name ≠ "" → other_name ≠ "" →
        (handler_name, generation self handler_name, rule_index, request_key) ≠
          (other_name, generation self other_name, other_index, other_request_key) →
        self.build_counter_key id request_key handler_name rule_index ≠
          self.build_counter_key id other_request_key other_name other_index) ∧
    ¬ ∀ (handler_name other_name request_key other_request_key : String) (rule_index other_index : Nat)
        (bucket other_bucket : ℤ), handler_name ≠ "" → other_name ≠ "" →
        (handler_name, rule_index, request_key, bucket) ≠
        (other_name, other_index, other_request_key, other_bucket) →
        build_approx_counter_key request_key handler_name rule_index bucket ≠
          build_approx_counter_key other_request_key other_name other_index other_bucket := by
  constructor
  · intro hclaim
    refine hclaim .default "report" "report:0" "1:alice" "alice" 0 1 (by decide) (by decide) (by decide) ?_
    decide
  · intro hclaim
    refine hclaim "report" "report:0" "1:alice" "alice" 0 1 7 7 (by decide) (by decide) (by decide) ?_
    decide

end response_bandwidth_limiter.counter_keys
