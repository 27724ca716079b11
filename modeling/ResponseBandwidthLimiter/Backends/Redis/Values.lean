import ResponseBandwidthLimiter.Backends.Redis.Controls
import ResponseBandwidthLimiter.Backends.Memory.Values
import ResponseBandwidthLimiter.Collections.Fields

open collections
open response_bandwidth_limiter.base response_bandwidth_limiter.memory

namespace response_bandwidth_limiter.redis

/-- The forms a value has on the server: JSON behind its marker, bytes as they
    are, or a number that the server counts itself. -/
inductive Form where
  | dumped
  | raw
  | counted
  deriving DecidableEq, Repr

namespace Server

theorem integer_toString {count : ℤ} (hlow : -2 ^ 63 ≤ count) (hhigh : count < 2 ^ 63) :
    integer (toString count) = some count := by
  rw [integer, Int.toString_eq_repr, Int.toInt?_repr]
  exact if_pos ⟨Int.toString_eq_repr, hlow, hhigh⟩

theorem toString_of_integer {content : String} {count : ℤ} (h : integer content = some count) :
    toString count = content ∧ -2 ^ 63 ≤ count ∧ count < 2 ^ 63 := by
  unfold integer at h
  split at h
  · cases h
  · split at h
    · next hcanonical =>
      cases h
      exact hcanonical
    · cases h

/-- A dumped value is no number to the server. -/
theorem integer_dumped (dumped : String) : integer (JSON_PREFIX ++ dumped) = none := by
  by_contra hne
  obtain ⟨count, hcount⟩ := Option.ne_none_iff_exists'.mp hne
  obtain ⟨hcontent, -⟩ := toString_of_integer hcount
  have hmarker : '_' ∈ (toString count).toList := by
    rw [hcontent, String.toList_append]
    exact List.mem_append_left _ (by decide)
  rcases digit_or_minus_of_mem_repr hmarker with hdigit | hminus
  · revert hdigit
    decide
  · revert hminus
    decide

theorem set_of_valid (now : ℚ) (key content : String) {ex : Option ℤ} (hvalid : validate_expire ex = .ok ())
    (self : Server) :
    set now key content ex self =
      (some (), Function.update self key (some ⟨.text content, ex.map (fun seconds : ℤ => now + seconds)⟩)) := by
  cases ex with
  | none => rfl
  | some seconds =>
    have hpos : 0 < seconds := validate_expire_ok_iff.mp hvalid seconds rfl
    rw [set, if_neg (not_le.mpr hpos)]
    rfl

theorem incr_of_missing {self : Server} {key : String} (hmissing : self key = none) :
    incr key self = (some 1, Function.update self key (some ⟨.text (toString (1 : ℤ)), none⟩)) := by
  rw [incr, hmissing]
  rfl

theorem incr_of_integer {self : Server} {key content : String} {expires_at : Option ℚ} {count : ℤ}
    (hentry : self key = some ⟨.text content, expires_at⟩) (hinteger : integer content = some count)
    (hroom : count + 1 < 2 ^ 63) :
    incr key self =
      (some (count + 1), Function.update self key (some ⟨.text (toString (count + 1)), expires_at⟩)) := by
  simp only [incr, hentry, hinteger, if_pos hroom]

theorem incr_expire_of_incr {self : Server} {key : String} {current : ℤ} {entry : Timed RedisValue ℚ}
    (hincr : incr key self = (some current, Function.update self key (some entry))) (now : ℚ) {seconds : ℤ}
    (hpos : 0 < seconds) :
    incr_expire now key seconds self =
      (some current, Function.update self key (some { entry with expires_at := some (now + seconds) })) := by
  rw [incr_expire, hincr]
  simp only [expire, Function.update_self, if_neg (not_le.mpr hpos), Function.update_idem]

/-- A server that answers has come round to every expired key. -/
def swept (self : Server) (now : ℚ) : Server := self.expire_keys (Environment.healthy now "").toContact

theorem expire_keys_healthy (self : Server) (now : ℚ) (uuid : String) :
    self.expire_keys (Environment.healthy now uuid).toContact = self.swept now := rfl

theorem swept_of_text {self : Server} {now : ℚ} {key content : String} {expires_at : Option ℚ}
    (hlasting : lasting now (self key) = some ⟨.text content, expires_at⟩) :
    self.swept now key = some ⟨.text content, expires_at⟩ := by
  obtain ⟨hentry, -⟩ := lasting_eq_some_iff.mp hlasting
  rw [swept, expire_keys_of_text hentry]
  exact hlasting

theorem swept_of_gone {self : Server} {now : ℚ} {key : String} (hgone : lasting now (self key) = none) :
    self.swept now key = none := by
  cases hentry : self key with
  | none => simp only [swept, expire_keys, hentry]
  | some entry =>
    obtain ⟨value, expires_at⟩ := entry
    cases value with
    | text content =>
      rw [swept, expire_keys_of_text hentry]
      exact hgone
    | sorted_set content =>
      have hdead := live_of_not_lasting hgone
      rw [hentry, live, Option.filter_some, ite_eq_right_iff] at hdead
      have halive : Timed.alive now (⟨.sorted_set content, expires_at⟩ : Timed RedisValue ℚ) = false :=
        Bool.eq_false_iff.mpr fun halive => Option.some_ne_none _ (hdead halive)
      simp [swept, expire_keys, hentry, Environment.healthy, halive]

end Server

section Forms

variable {V : Type} [PyValue V] (lib : Libraries V)

def Form.Encodes : Form → String → V → Prop
  | .dumped, text, value =>
    lib.bytes_text value = none ∧ ∃ dumped, lib.json_dumps value = some dumped ∧ text = JSON_PREFIX ++ dumped
  | .raw, text, value => lib.bytes_text value = some text
  | .counted, text, value =>
    ∃ count : ℤ, -2 ^ 63 ≤ count ∧ count < 2 ^ 63 ∧ text = toString count ∧ value = PyValue.int count

def value_form (value : V) : Form := if (lib.bytes_text value).isSome then .raw else .dumped

/-- The key an operation writes, and the form it leaves there. -/
def written_form : Operation V → Option (String × Form)
  | .set key value _ => some (key, value_form lib value)
  | .incr key _ => some (key, .counted)
  | _ => none

/-- The form in which a key was last written. -/
def last_form (before : List (Access V)) (key : String) : Option Form :=
  before.foldl (fun found access =>
    match written_form lib access.operation with
    | none => found
    | some (written, form) => if written = key then some form else found) none

/-- What a map has at a key is on the server in the form last written, with the
    same expiry. -/
def Corresponds (form : Option Form) (now : ℚ) (remote : Option (Timed RedisValue ℚ)) (own : Option (Timed V ℚ)) :
    Prop :=
  (lasting now remote = none ∧ lasting now own = none) ∨
    ∃ text value expires_at, lasting now remote = some ⟨.text text, expires_at⟩ ∧
      lasting now own = some ⟨value, expires_at⟩ ∧ ∃ kind ∈ form, kind.Encodes lib text value

variable {lib}

theorem encodes_serialize_value {value : V} {text : String}
    (h : RedisStorage.serialize_value lib value = some text) :
    (value_form lib value).Encodes lib text value := by
  unfold RedisStorage.serialize_value at h
  unfold value_form
  cases hbytes : lib.bytes_text value with
  | some raw =>
    rw [hbytes] at h
    exact hbytes.trans h
  | none =>
    rw [hbytes, Option.map_eq_some_iff] at h
    obtain ⟨dumped, hdumped, rfl⟩ := h
    exact ⟨hbytes, dumped, hdumped, rfl⟩

theorem last_form_concat (lib : Libraries V) (before : List (Access V)) (access : Access V) (key : String) :
    last_form lib (before ++ [access]) key =
      match written_form lib access.operation with
      | none => last_form lib before key
      | some (written, form) => if written = key then some form else last_form lib before key := by
  rw [last_form, List.foldl_append]
  rfl

theorem corresponds_none (form : Option Form) (now : ℚ) : Corresponds lib form now none none := Or.inl ⟨rfl, rfl⟩

theorem Form.Encodes.corresponds {kind : Form} {text : String} {value : V} (h : kind.Encodes lib text value)
    (now : ℚ) (expires_at : Option ℚ) :
    Corresponds lib (some kind) now (some ⟨.text text, expires_at⟩) (some ⟨value, expires_at⟩) := by
  cases hlasts : (⟨value, expires_at⟩ : Timed V ℚ).lasts now with
  | true =>
    exact Or.inr ⟨text, value, expires_at, lasting_some_of_lasts hlasts, lasting_some_of_lasts hlasts, kind, rfl, h⟩
  | false => exact Or.inl ⟨lasting_some_of_not_lasts hlasts, lasting_some_of_not_lasts hlasts⟩

theorem corresponds_lasting {form : Option Form} {now later : ℚ} (hle : now ≤ later)
    {remote : Option (Timed RedisValue ℚ)} {own : Option (Timed V ℚ)} :
    Corresponds lib form later (lasting now remote) (lasting now own) ↔ Corresponds lib form later remote own := by
  rw [Corresponds, Corresponds, lasting_lasting_of_le hle, lasting_lasting_of_le hle]

/-- What corresponds at a time does so from then on. -/
theorem Corresponds.later {form : Option Form} {now : ℚ} {remote : Option (Timed RedisValue ℚ)}
    {own : Option (Timed V ℚ)} (h : Corresponds lib form now remote own) {later : ℚ} (hle : now ≤ later) :
    Corresponds lib form later remote own := by
  rw [← corresponds_lasting hle]
  rcases h with ⟨hremote, hown⟩ | ⟨text, value, expires_at, hremote, hown, kind, rfl, hencodes⟩
  · rw [hremote, hown]
    exact corresponds_none form later
  · rw [hremote, hown]
    exact hencodes.corresponds later expires_at

/-- What corresponds still does when the server has come round to the key. -/
theorem Corresponds.swept {form : Option Form} {now : ℚ} {server : Server} {key : String}
    {own : Option (Timed V ℚ)} (h : Corresponds lib form now (server key) own) :
    Corresponds lib form now (server.swept now key) own := by
  rcases h with ⟨hremote, hown⟩ | ⟨text, value, expires_at, hremote, hown, hkind⟩
  · rw [Server.swept_of_gone hremote]
    exact Or.inl ⟨rfl, hown⟩
  · rw [Server.swept_of_text hremote]
    exact Or.inr ⟨text, value, expires_at, lasting_some_of_lasts (lasting_eq_some_iff.mp hremote).2, hown, hkind⟩

end Forms

namespace RedisStorage

variable {V : Type} [PyValue V] {lib : Libraries V}

/-- A storage shows what a map has, written as the accesses so far wrote it. -/
def Shows (lib : Libraries V) (before : List (Access V)) (now : ℚ) (storage : RedisStorage V) (values : Values V) :
    Prop :=
  ∀ key, Corresponds lib (last_form lib before key) now (storage.client (storage.build_data_key key)) (values key)

theorem healthy_server_time (now : ℚ) (uuid : String) : (Environment.healthy now uuid).server_time = now := rfl

omit [PyValue V] in
theorem send_healthy {R : Type} (self : RedisStorage V) (now : ℚ) (uuid : String) (command : Server.Command R) :
    self.send (.healthy now uuid) command =
      ((command (self.client.swept now)).1, { self with client := (command (self.client.swept now)).2 }) := by
  rw [send, Server.call_of_healthy rfl, Server.expire_keys_healthy]

/-- An increment that the server runs, with the new expiry if there is one. -/
theorem incr_healthy {self : RedisStorage V} {now : ℚ} {uuid key text : String} {current : ℤ}
    {expires_at : Option ℚ}
    (hincr : Server.incr (self.build_data_key key) (self.client.swept now) = (some current,
      Function.update (self.client.swept now) (self.build_data_key key) (some ⟨.text text, expires_at⟩)))
    {expire : Option ℤ} (hvalid : validate_expire expire = .ok ()) :
    self.incr (.healthy now uuid) key expire = (.ok current, { self with
      client := Function.update (self.client.swept now) (self.build_data_key key)
        (some ⟨.text text, (expire.map (fun seconds : ℤ => now + seconds)).or expires_at⟩) }) := by
  cases expire with
  | none => simp only [RedisStorage.incr, send_healthy, hincr, Option.map_none, Option.none_or]
  | some seconds =>
    have hpos : 0 < seconds := validate_expire_ok_iff.mp hvalid seconds rfl
    simp only [RedisStorage.incr, healthy_server_time, send_healthy, Server.incr_expire_of_incr hincr now hpos,
      Option.map_some, Option.some_or]

section Steps

variable {before : List (Access V)} {now : ℚ} {self : RedisStorage V} {values : Values V}

theorem Shows.later (h : Shows lib before now self values) {later : ℚ} (hle : now ≤ later) :
    Shows lib before later self values := fun key => (h key).later hle

/-- A read shows what was shown before. -/
theorem Shows.swept (h : Shows lib before now self values) (access : Access V)
    (hwritten : written_form lib access.operation = none) :
    Shows lib (before ++ [access]) now { self with client := self.client.swept now } values := by
  intro key
  rw [last_form_concat, hwritten]
  exact (h key).swept

/-- A write of corresponding entries to a key shows them there and leaves the
    other keys alone. -/
theorem Shows.update (h : Shows lib before now self values) {access : Access V} (put : String) (form : Option Form)
    (hwritten : ∀ key, last_form lib (before ++ [access]) key = if put = key then form else last_form lib before key)
    {remote : Option (Timed RedisValue ℚ)} {own : Option (Timed V ℚ)} (hput : Corresponds lib form now remote own) :
    Shows lib (before ++ [access]) now
      { self with client := Function.update (self.client.swept now) (self.build_data_key put) remote }
      (Function.update values put own) := by
  intro key
  rw [hwritten]
  by_cases heq : put = key
  · subst heq
    rw [if_pos rfl, Function.update_self]
    simp only [build_data_key, Function.update_self]
    exact hput
  · have hne : self.build_data_key key ≠ self.build_data_key put :=
      fun hsame => heq (self.build_data_key_injective hsame).symm
    rw [if_neg heq, Function.update_of_ne (Ne.symm heq)]
    change Corresponds lib _ now
      (Function.update (self.client.swept now) (self.build_data_key put) remote (self.build_data_key key)) _
    rw [Function.update_of_ne hne]
    exact (h key).swept

/-- The libraries on JSON values and on the bytes of numbers. -/
structure Faithful (lib : Libraries V) : Prop where
  loads_dumps : ∀ value dumped, lib.bytes_text value = none → lib.json_dumps value = some dumped →
    lib.json_loads dumped = .ok value
  bytes_integer : ∀ value text count, lib.bytes_text value = some text → Server.integer text = some count →
    PyValue.as_int value = .ok count

/-- The operations on bytes and JSON values with a valid expiry. -/
def Served (lib : Libraries V) : Operation V → Prop
  | .get _ => True
  | .set _ value expire => (∃ text, serialize_value lib value = some text) ∧ validate_expire expire = .ok ()
  | .incr _ expire => validate_expire expire = .ok ()
  | .delete _ => True
  | _ => False

/-- A read finds its key missing or last written with a JSON value, and an
    increment finds it missing, last incremented, or last written with the bytes
    of a number that the server can read, each with room for one more. Neither
    falls on the time of the key's expiry, through which the server keeps it and
    a map does not. -/
def Readable (lib : Libraries V) (form : Option Form) (now : ℚ) (entry : Option (Timed V ℚ)) : Operation V → Prop
  | .get _ => ∀ found ∈ lasting now entry, found.expires_at ≠ some now ∧ form = some .dumped
  | .incr _ _ => ∀ found ∈ lasting now entry, found.expires_at ≠ some now ∧
    (form = some .counted ∨
      (form = some .raw ∧ ∃ text count, lib.bytes_text found.value = some text ∧ Server.integer text = some count)) ∧
    ∀ count, PyValue.as_int found.value = .ok count → count + 1 < 2 ^ 63
  | _ => True

variable {numerals : Numerals}

/-- One access of a run over a server that answers. -/
def access (lib : Libraries V) (numerals : Numerals) (self : RedisStorage V) (access : Access V) :
    Except PyError (Reply V) × RedisStorage V :=
  self.operate lib numerals (.healthy access.now "") access.operation

theorem Shows.get (h : Shows lib before now self values) (hfaithful : Faithful lib) {read : String}
    (hreadable : Readable lib (last_form lib before read) now (values read) (.get read)) :
    (access lib numerals self ⟨now, .get read⟩).1 = (values.perform ⟨now, .get read⟩).1 ∧
      Shows lib (before ++ [⟨now, .get read⟩]) now (access lib numerals self ⟨now, .get read⟩).2
        (values.perform ⟨now, .get read⟩).2 := by
  have hswept := h.swept ⟨now, .get read⟩ rfl
  simp only [access, operate, RedisStorage.get, send_healthy, Values.perform, Values.operate]
  rcases h read with ⟨hremote, hown⟩ | ⟨text, value, expires_at, hremote, hown, kind, hkind, hencodes⟩
  · simp only [Server.get, Server.swept_of_gone hremote, live_of_not_lasting hown]
    exact ⟨rfl, hswept⟩
  · obtain ⟨hinstant, hform⟩ := hreadable _ hown
    obtain rfl : Form.dumped = kind := Option.some.inj (hform.symm.trans hkind)
    obtain ⟨hbytes, dumped, hdumped, rfl⟩ := hencodes
    simp only [Server.get, Server.swept_of_text hremote, live_of_lasting hown hinstant, deserialize_value_marked,
      hfaithful.loads_dumps value dumped hbytes hdumped]
    exact ⟨rfl, hswept⟩

theorem Shows.set (h : Shows lib before now self values) {put : String} {value : V} {expire : Option ℤ}
    (hserved : Served lib (.set put value expire)) :
    (access lib numerals self ⟨now, .set put value expire⟩).1 = (values.perform ⟨now, .set put value expire⟩).1 ∧
      Shows lib (before ++ [⟨now, .set put value expire⟩]) now
        (access lib numerals self ⟨now, .set put value expire⟩).2
        (values.perform ⟨now, .set put value expire⟩).2 := by
  obtain ⟨⟨text, htext⟩, hvalid⟩ := hserved
  have hset := Server.set_of_valid now (self.build_data_key put) text hvalid (self.client.swept now)
  have hform := last_form_concat lib before ⟨now, .set put value expire⟩
  simp only [access, operate, RedisStorage.set, htext, healthy_server_time, send_healthy, hset, Values.perform,
    Values.operate, hvalid]
  exact ⟨rfl, h.update put _ hform ((encodes_serialize_value htext).corresponds now _)⟩

theorem Shows.incr (h : Shows lib before now self values) (hfaithful : Faithful lib) {counted : String}
    {expire : Option ℤ} (hserved : Served lib (.incr counted expire))
    (hreadable : Readable lib (last_form lib before counted) now (values counted) (.incr counted expire)) :
    (access lib numerals self ⟨now, .incr counted expire⟩).1 = (values.perform ⟨now, .incr counted expire⟩).1 ∧
      Shows lib (before ++ [⟨now, .incr counted expire⟩]) now
        (access lib numerals self ⟨now, .incr counted expire⟩).2 (values.perform ⟨now, .incr counted expire⟩).2 := by
  have hvalid : validate_expire expire = .ok () := hserved
  have hform := last_form_concat lib before ⟨now, .incr counted expire⟩
  simp only [access, operate, Values.perform, Values.operate, hvalid]
  rcases h counted with ⟨hremote, hown⟩ | ⟨text, value, expires_at, hremote, hown, kind, hkind, hencodes⟩
  · have hincr := Server.incr_of_missing (Server.swept_of_gone hremote)
    have hone : Form.counted.Encodes lib (toString (1 : ℤ)) (PyValue.int 1 : V) :=
      ⟨1, by norm_num, by norm_num, rfl, rfl⟩
    rw [incr_healthy hincr hvalid, live_of_not_lasting hown]
    exact ⟨rfl, h.update counted _ hform (hone.corresponds now _)⟩
  · obtain ⟨hinstant, hforms, hroom⟩ := hreadable _ hown
    obtain ⟨count, hinteger, hcount⟩ : ∃ count, Server.integer text = some count ∧
        PyValue.as_int value = .ok count := by
      rcases hforms with hlast | ⟨hlast, raw, count, hraw, hcount⟩
      · obtain rfl : Form.counted = kind := Option.some.inj (hlast.symm.trans hkind)
        obtain ⟨count, hlow, hhigh, rfl, rfl⟩ := hencodes
        exact ⟨count, Server.integer_toString hlow hhigh, PyValue.as_int_int count⟩
      · obtain rfl : Form.raw = kind := Option.some.inj (hlast.symm.trans hkind)
        obtain rfl : raw = text := Option.some.inj (hraw.symm.trans hencodes)
        exact ⟨count, hcount, hfaithful.bytes_integer value raw count hraw hcount⟩
    have hincr := Server.incr_of_integer (Server.swept_of_text hremote) hinteger (hroom count hcount)
    have hnext : Form.counted.Encodes lib (toString (count + 1)) (PyValue.int (count + 1) : V) :=
      ⟨count + 1, by linarith [(Server.toString_of_integer hinteger).2.1], hroom count hcount, rfl, rfl⟩
    rw [incr_healthy hincr hvalid, live_of_lasting hown hinstant]
    simp only [Option.map_some, Option.elim_some, hcount]
    exact ⟨rfl, h.update counted _ hform (hnext.corresponds now _)⟩

theorem Shows.delete (h : Shows lib before now self values) (deleted : String) :
    (access lib numerals self ⟨now, .delete deleted⟩).1 = (values.perform ⟨now, .delete deleted⟩).1 ∧
      Shows lib (before ++ [⟨now, .delete deleted⟩]) now (access lib numerals self ⟨now, .delete deleted⟩).2
        (values.perform ⟨now, .delete deleted⟩).2 := by
  simp only [access, operate, RedisStorage.delete, send_healthy, Server.delete, Values.perform, Values.operate]
  refine ⟨rfl, h.update deleted (last_form lib before deleted) (fun key => ?_) (corresponds_none _ now)⟩
  rw [last_form_concat]
  change last_form lib before key = _
  split
  · next heq => rw [heq]
  · rfl

/-- The step lemma of the simulation. -/
theorem Shows.access (h : Shows lib before now self values) (numerals : Numerals) (hfaithful : Faithful lib)
    {operation : Operation V}
    {key : String} (hkey : operation.key = some key) (hserved : Served lib operation)
    (hreadable : Readable lib (last_form lib before key) now (values key) operation) :
    (RedisStorage.access lib numerals self ⟨now, operation⟩).1 = (values.perform ⟨now, operation⟩).1 ∧
      Shows lib (before ++ [⟨now, operation⟩]) now (RedisStorage.access lib numerals self ⟨now, operation⟩).2
        (values.perform ⟨now, operation⟩).2 := by
  cases operation with
  | get read =>
    cases hkey
    exact h.get hfaithful hreadable
  | set put value expire => exact h.set hserved
  | incr counted expire =>
    cases hkey
    exact h.incr hfaithful hserved hreadable
  | delete deleted => exact h.delete deleted
  | record_hit => cases hkey
  | cleanup_handler_counters => cases hkey
  | cleanup_orphaned_counters => cases hkey

end Steps

theorem Served.key {operation : Operation V} (h : Served lib operation) : ∃ key, operation.key = some key := by
  cases operation with
  | get key => exact ⟨key, rfl⟩
  | set key value expire => exact ⟨key, rfl⟩
  | incr key expire => exact ⟨key, rfl⟩
  | delete key => exact ⟨key, rfl⟩
  | record_hit => exact h.elim
  | cleanup_handler_counters => exact h.elim
  | cleanup_orphaned_counters => exact h.elim

/-- A run of value operations, each of which finds its key in a form it can
    read, answers as an expiring map does. -/
theorem outputs_access (hfaithful : Faithful lib) (numerals : Numerals) {storage : RedisStorage V}
    (hempty : ∀ key, storage.client (storage.build_data_key key) = none) {accesses : List (Access V)}
    (hmono : accesses.Pairwise (fun first second => first.now ≤ second.now))
    (hserved : ∀ access ∈ accesses, Served lib access.operation)
    (hreadable : ∀ before access rest key, accesses = before ++ access :: rest → access.operation.key = some key →
      Readable lib (last_form lib before key) access.now (settle Values.perform .empty before key) access.operation) :
    outputs (access lib numerals) storage accesses = outputs Values.perform .empty accesses := by
  have hrun : List.Forall₂ Eq (outputs (access lib numerals) storage accesses)
      (outputs Values.perform (.empty : Values V) accesses) ∧ _ :=
    simulation Eq (fun before s values => values = settle Values.perform .empty before ∧
      ∀ now, (∀ earlier ∈ before, earlier.now ≤ now) → Shows lib before now s values) ⟨rfl, fun now _ key => ?_⟩ ?_
  · exact List.forall₂_eq_eq_eq ▸ hrun.1
  · rw [hempty key]
    exact corresponds_none _ now
  · rintro before access rest hsplit s values ⟨rfl, hshows⟩
    have haccess := hserved access (by simp [hsplit])
    obtain ⟨key, hkey⟩ := haccess.key
    have hearlier : ∀ earlier ∈ before, earlier.now ≤ access.now := fun earlier hmem =>
      (List.pairwise_append.mp (hsplit ▸ hmono)).2.2 earlier hmem access List.mem_cons_self
    obtain ⟨hanswer, hnext⟩ := (hshows access.now hearlier).access numerals hfaithful hkey haccess
      (hreadable before access rest key hsplit hkey)
    refine ⟨hanswer, (settle_concat Values.perform _ before access).symm, fun now hnow => ?_⟩
    exact hnext.later (hnow access (by simp))

/-- An increment of a dumped value goes to the failure handler. -/
theorem incr_of_dumped {self : RedisStorage V} {now : ℚ} {uuid key : String} (dumped : String)
    {expires_at : Option ℚ}
    (hentry : self.client.swept now (self.build_data_key key) = some ⟨.text (JSON_PREFIX ++ dumped), expires_at⟩) :
    self.incr (.healthy now uuid) key none =
      handle_incr_failure { self with client := self.client.swept now } (.healthy now uuid) key none := by
  simp only [RedisStorage.incr, send_healthy, Server.incr, hentry, Server.integer_dumped]

end RedisStorage

/-- The libraries on the objects the library stores, texts without characters to
    escape. -/
def Libraries.json : Libraries PlainValue where
  hexdigest := id
  bytes_text := Libraries.plain.bytes_text
  json_dumps
    | .none => some "null"
    | .str text => some ("\"" ++ text ++ "\"")
    | .int value => some (toString value)
  json_loads dumped :=
    if starts_with dumped "\"" then .ok (.str (String.ofList (dumped.toList.drop 1).dropLast))
    else if dumped = "null" then .ok .none
    else
      match dumped.toInt? with
      | some value => .ok (.int value)
      | none => .error (.value_error "Expecting value")
  bytes_text_str := Libraries.plain.bytes_text_str
  json_loads_dumps text dumped hdumped := by
    cases hdumped
    simp [PyValue.str, starts_with_append, String.append_assoc, String.toList_append]

theorem Libraries.json_faithful : RedisStorage.Faithful Libraries.json where
  bytes_integer := nofun
  loads_dumps value dumped _ hdumped := by
    cases value with
    | none =>
      cases hdumped
      rfl
    | str text => exact Libraries.json.json_loads_dumps text dumped hdumped
    | int value =>
      cases hdumped
      have hforeign : ∀ c : Char, ¬ c.isDigit → c ≠ '-' → c ∉ (toString value).toList := fun c hdigit hminus hc =>
        (digit_or_minus_of_mem_repr hc).elim hdigit hminus
      have htext : starts_with (toString value) "\"" = false := by
        rw [Bool.eq_false_iff, Ne, starts_with_iff]
        exact fun hquoted => hforeign '\"' (by decide) (by decide) (hquoted.subset (by decide))
      have hnull : toString value ≠ "null" := fun heq => hforeign 'n' (by decide) (by decide) (heq ▸ by decide)
      have hloads : (toString value).toInt? = some value := by rw [Int.toString_eq_repr, Int.toInt?_repr]
      simp only [Libraries.json, htext, Bool.false_eq_true, if_false, if_neg hnull, hloads]

namespace RedisStorage

/-- A number is stored and counted up. -/
def stored_count : List (Access PlainValue) := [⟨0, .set "visits" (.int 5) none⟩, ⟨1, .incr "visits" none⟩]

/-- A number is stored, read and deleted, and then counted from the start. -/
def recount : List (Access PlainValue) :=
  [⟨0, .set "visits" (.int 5) (some 60)⟩, ⟨1, .get "visits"⟩, ⟨2, .delete "visits"⟩, ⟨3, .incr "visits" (some 60)⟩,
    ⟨4, .incr "visits" none⟩]

end RedisStorage

end response_bandwidth_limiter.redis
