import AttestedChannel.Config
import AttestedChannel.Proofs.Attestation.Evidence
import AttestedChannel.Proofs.Cbor.Repeats
import AttestedChannel.Proofs.Payload.RoundTrip
import Mathlib.Data.List.Nodup
import Mathlib.Data.List.Perm.Subperm

/-!
# Reading back parts of a configuration

Any entries of a configuration, in any order, are read back as their fields over those of the
default (`decode_record`); all of them are read back as the configuration, and none of them as the
default. The order does not matter because a draft keeps the fields that it has apart from the order
in which they came (`draft`).

A second entry of a field is refused: behind entries that were written (`decode_duplicate`), and in
every map of items, whatever the other entries are and however they are written (`decode_repeated`).
There is one exception. Where a role or an attestation type is given as a map of one entry, the value
of that entry is not read, and what the reader meets next is that value (`repeatedRole_accepted`).
What can be said even then is said in terms of the reader: the names that it has met in what it
accepts are different ones, and the fields that it has not met have their default
(`decodeNoted_spec`).
-/

namespace AttestedChannel

open Cbor

/-! ## The values of single fields -/

theorem Role.reads_write (depth : Nat) (r : Role) : Reads (Role.reader (depth + 1)) r.write r := by
  have hv : variants.find? (fun w => Text.Utf8.encode w.1 == Text.Utf8.encode r.name) =
      some (r.name, r) := by cases r <;> rfl
  exact reads_variant (v := (r.name, r)) (by cases r <;> decide) hv

theorem Cbor.reads_uint64 (x : UInt64) : Reads uint64 (Write.unsigned x.toNat) x := by
  have h := (reads_unsigned 64 (by decide) x.toNat_lt).map UInt64.ofNat
  rwa [UInt64.ofNat_toNat] at h

namespace Duration

/-- The nanoseconds do not make a second. -/
def IsNormal (d : Duration) : Prop := d.nanos.toNat < nanosPerSecond

instance (d : Duration) : Decidable d.IsNormal :=
  inferInstanceAs (Decidable (d.nanos.toNat < nanosPerSecond))

/-- Nothing is carried from nanoseconds that do not make a second. -/
theorem carry?_of_isNormal {d : Duration} (h : d.IsNormal) : carry? d.seconds d.nanos = some d := by
  have hn : d.nanos.toNat < nanosPerSecond := h
  have hs : d.seconds.toNat < 0x10000000000000000 := d.seconds.toNat_lt
  simp only [carry?, Nat.div_eq_of_lt hn, Nat.mod_eq_of_lt hn, Nat.add_zero, if_pos hs,
    UInt64.ofNat_toNat, UInt32.ofNat_toNat]

theorem reads_encode (depth : Nat) {d : Duration} (h : d.IsNormal) :
    Reads (reader (depth + 1)) d.encode d := by
  refine reads_record ⟨some d.seconds, some d.nanos⟩ (by simp [headRange])
    (.cons (reads_field "secs" rfl (by decide) rfl (reads_uint64 d.seconds))
      (.cons (reads_field "nanos" rfl (by decide) rfl (reads_uint32 d.nanos)) (.nil _))) ?_
  simp only [ofDraft, required, bind, Except.bind, carry?_of_isNormal h]
  rfl

theorem stops_reader (depth : Nat) : Stops (reader depth) := by
  refine stops_record (stopsUnknown_refuseUnknown _) fun f hf depth draft => ?_
  simp only [fields, List.mem_cons, List.not_mem_nil, or_false] at hf
  rcases hf with rfl | rfl
  · exact stops_uint64.map _
  · exact stops_uint32.map _

end Duration

theorem Measurements.stops_reader (depth : Nat) : Stops (reader depth) := by
  refine Stops.untagged ⟨fun {h b} hb start => ⟨fun {rest o m d} hd => ?_⟩⟩
  cases h with
  | map n =>
    obtain ⟨es, hes, hc⟩ := hb.of_map
    cases depth with
    | zero => cases hd
    | succ depth =>
      refine (ends_readContainer (fun w hw m => ?_) hc empty).rest_eq hd
      obtain ⟨e, he, rfl⟩ := List.mem_map.1 hw
      obtain ⟨hk, hv⟩ := hes e he
      refine stops_uint8.spans_bind hk
        (fun i => ((stops_octets depth).map (m.insert i)).run hv) fun {start h c m' d} hd => ?_
      unfold entryReader at hd
      split at hd
      · cases hd
      · next i c' hi => exact ⟨i, c', hi, hd⟩
  | _ => cases hd

namespace Config

variable {c : Config} {names : List String}

/-! ## Some fields of a configuration over another one -/

/-- The fields of `c` with these names, over those of `base`. -/
def overlay (c : Config) (names : List String) (base : Config) : Config where
  role := if "role" ∈ names then c.role else base.role
  attestationType := if "attestation_type" ∈ names then c.attestationType else base.attestationType
  propertyMask := if "property_mask" ∈ names then c.propertyMask else base.propertyMask
  expectedMeasurements :=
    if "expected_measurements" ∈ names then c.expectedMeasurements else base.expectedMeasurements
  measurementTimeout :=
    if "measurement_timeout" ∈ names then c.measurementTimeout else base.measurementTimeout
  handshakeTimeout :=
    if "handshake_timeout" ∈ names then c.handshakeTimeout else base.handshakeTimeout
  mutualAttestation :=
    if "mutual_attestation" ∈ names then c.mutualAttestation else base.mutualAttestation
  selfDescription := if "self_description" ∈ names then c.selfDescription else base.selfDescription
  daemonSocket := if "tpmd_socket" ∈ names then c.daemonSocket else base.daemonSocket

/-- The value of a field, if its name is among these. -/
def known {α : Type} (names : List String) (s : String) (v : α) : Option α :=
  if s ∈ names then some v else none

theorem getD_known {α : Type} (names : List String) (s : String) (v w : α) :
    (known names s v).getD w = if s ∈ names then v else w := by
  unfold known
  split <;> rfl

theorem known_of_not_mem {α : Type} {s : String} (h : s ∉ names) (v : α) :
    known names s v = none := if_neg h

/-- The draft that has the fields of `c` with these names. -/
def draft (c : Config) (names : List String) : Draft where
  role := known names "role" c.role
  attestationType := known names "attestation_type" c.attestationType
  propertyMask := known names "property_mask" c.propertyMask
  expectedMeasurements := known names "expected_measurements" c.expectedMeasurements
  measurementTimeout := known names "measurement_timeout" c.measurementTimeout
  handshakeTimeout := known names "handshake_timeout" c.handshakeTimeout
  mutualAttestation := known names "mutual_attestation" c.mutualAttestation
  selfDescription := known names "self_description" c.selfDescription
  daemonSocket := known names "tpmd_socket" c.daemonSocket

theorem overriding_draft (c : Config) (names : List String) (base : Config) :
    (c.draft names).overriding base = c.overlay names base := by
  simp only [Draft.overriding, draft, overlay, getD_known]

/-- What can be written: durations are normal, and lengths fit the heads of items. -/
structure IsWritable (c : Config) : Prop where
  measurementTimeout : c.measurementTimeout.IsNormal
  handshakeTimeout : c.handshakeTimeout.IsNormal
  length_lt : c.encode.length < headRange

/-! ## Entries -/

/-- A field of `c` is read into a draft that does not have it yet. -/
theorem reads_known {α : Type} {get : Draft → Option α} {set : Draft → α → Draft}
    {r : Nat → Reader α} {v : α} {w : Bytes} (s : String)
    (hf : fields.find? (fun g => Text.Utf8.encode g.name == Text.Utf8.encode s) =
      some (.ofReader s get set r))
    (hs : (Text.Utf8.encode s).length ≤ chunkSize) (hget : get (c.draft names) = known names s v)
    (hset : set (c.draft names) v = c.draft (names ++ [s])) (hn : s ∉ names)
    (hw : Reads (r 255) w v) :
    Reads (readEntry fields skipUnknown 255 (c.draft names)) (Write.text s ++ w)
      (c.draft (names ++ [s])) := by
  rw [← hset]
  exact reads_field s hf hs (hget.trans (known_of_not_mem hn v)) hw

/-- **An entry of a configuration is read** into a draft that does not have its field yet. -/
theorem reads_entry_of_mem (hc : c.IsWritable) {e : String × Bytes} (he : e ∈ c.entries)
    (hn : e.1 ∉ names) :
    Reads (readEntry fields skipUnknown 255 (c.draft names)) (Write.text e.1 ++ e.2)
      (c.draft (names ++ [e.1])) := by
  have hlen : e.2.length < headRange := length_of_record_lt e.1 hc.length_lt he
  simp only [entries, List.mem_cons, List.not_mem_nil, or_false] at he
  rcases he with rfl | rfl | rfl | rfl | rfl | rfl | rfl | rfl | rfl
  · exact reads_known "role" rfl (by decide) rfl (by simp [draft, known]) hn
      (c.role.reads_write 254)
  · exact reads_known "attestation_type" rfl (by decide) rfl (by simp [draft, known]) hn
      (c.attestationType.reads_write 254)
  · exact reads_known "property_mask" rfl (by decide) rfl (by simp [draft, known]) hn
      c.propertyMask.reads_write
  · exact reads_known "expected_measurements" rfl (by decide) rfl (by simp [draft, known]) hn
      (Measurements.reads_write 253 hlen)
  · exact reads_known "measurement_timeout" rfl (by decide) rfl (by simp [draft, known]) hn
      (Duration.reads_encode 254 hc.measurementTimeout)
  · exact reads_known "handshake_timeout" rfl (by decide) rfl (by simp [draft, known]) hn
      (Duration.reads_encode 254 hc.handshakeTimeout)
  · exact reads_known "mutual_attestation" rfl (by decide) rfl (by simp [draft, known]) hn
      (reads_boolean c.mutualAttestation)
  · exact reads_known "self_description" rfl (by decide) rfl (by simp [draft, known]) hn
      (reads_text (length_of_text_lt hlen))
  · exact reads_known "tpmd_socket" rfl (by decide) rfl (by simp [draft, known]) hn
      (reads_text (length_of_text_lt hlen))

/-- Entries with different names fill a draft, in whatever order they come. -/
theorem fills_entries (hc : c.IsWritable) {es : List (String × Bytes)}
    (hes : ∀ e ∈ es, e ∈ c.entries) (hn : (names ++ es.map (·.1)).Nodup) :
    Fills (readEntry fields skipUnknown 255) (c.draft names)
      (es.map fun e => Write.text e.1 ++ e.2) (c.draft (names ++ es.map (·.1))) := by
  induction es generalizing names with
  | nil =>
    simp only [List.map_nil, List.append_nil]
    exact .nil _
  | cons e es ih =>
    obtain ⟨he, hes⟩ := List.forall_mem_cons.1 hes
    have hsplit : names ++ (e :: es).map (·.1) = (names ++ [e.1]) ++ es.map (·.1) := by simp
    have hnew : e.1 ∉ names := fun h =>
      (List.nodup_append.1 hn).2.2 e.1 h e.1 List.mem_cons_self rfl
    rw [hsplit] at hn ⊢
    exact .cons (reads_entry_of_mem hc he hnew) (ih hes hn)

/-- There are nine entries, so their number fits a head. -/
theorem length_lt_of_nodup {es : List (String × Bytes)} (hes : ∀ e ∈ es, e ∈ c.entries)
    (hn : (es.map (·.1)).Nodup) : es.length < headRange := by
  have hle : es.length ≤ c.entries.length := ((List.Nodup.of_map _ hn).subperm hes).length_le
  have hnine : c.entries.length = 9 := rfl
  rw [hnine] at hle
  exact Nat.lt_of_le_of_lt hle (by decide)

/-- **A part of a configuration is read back over the default.** -/
theorem decode_record (hc : c.IsWritable) {es : List (String × Bytes)}
    (hes : ∀ e ∈ es, e ∈ c.entries) (hn : (es.map (·.1)).Nodup) (x : Bytes) :
    decode (Write.record es ++ x) = .ok (c.overlay (es.map (·.1)) default) := by
  have hfill : Fills (readEntry fields skipUnknown 255) (c.draft [])
      (es.map fun e => Write.text e.1 ++ e.2) (c.draft (es.map (·.1))) := fills_entries hc hes hn
  refine Reads.decode_append (reads_record _ (length_lt_of_nodup hes hn) hfill ?_) x
  exact congrArg Except.ok (overriding_draft c _ default)

theorem overlay_entries (c base : Config) : c.overlay (c.entries.map (·.1)) base = c := by
  simp [overlay, entries]

/-- The names of all entries are different. -/
theorem nodup_entries (c : Config) : (c.entries.map (·.1)).Nodup := by
  simp [entries]

/-! ## Entries that come twice -/

/-- A draft that has the fields with these names has set the field of each of them. -/
theorem exists_field_of_mem {s : String} (he : s ∈ c.entries.map (·.1)) (hs : s ∈ names) :
    ∃ f, fields.find? (fun g => Text.Utf8.encode g.name == Text.Utf8.encode s) = some f ∧
      f.name = s ∧ f.isSet (c.draft names) = true ∧ (Text.Utf8.encode s).length ≤ chunkSize := by
  simp only [entries, List.map_cons, List.map_nil, List.mem_cons, List.not_mem_nil, or_false] at he
  rcases he with rfl | rfl | rfl | rfl | rfl | rfl | rfl | rfl | rfl
  all_goals exact ⟨_, rfl, rfl, by simp [Field.ofReader, draft, known, hs], by decide⟩

/-- **A second entry of a field is refused**, whatever it holds and whatever follows. -/
theorem decode_duplicate (hc : c.IsWritable) {es : List (String × Bytes)}
    (hes : ∀ e ∈ es, e ∈ c.entries) (hn : (es.map (·.1)).Nodup) {s : String}
    (hs : s ∈ es.map (·.1)) (w : Bytes) {more : List (String × Bytes)}
    (hl : (es ++ (s, w) :: more).length < headRange) (x : Bytes) :
    decode (Write.record (es ++ (s, w) :: more) ++ x) =
      .error (.refused none (.duplicateField s)) := by
  obtain ⟨e, he, rfl⟩ := List.mem_map.1 hs
  obtain ⟨f, hf, hname, hset, hchunk⟩ :=
    exists_field_of_mem (List.mem_map_of_mem (hes e he)) hs
  have hfill : Fills (readEntry fields skipUnknown 255) (c.draft [])
      (es.map fun e => Write.text e.1 ++ e.2) (c.draft (es.map (·.1))) := fills_entries hc hes hn
  have h : decode (Write.record (es ++ (e.1, w) :: more) ++ x) =
      .error (.refused none (.duplicateField f.name)) :=
    refuses_duplicate hl hfill hchunk hf hset x
  rwa [hname] at h

/-! ## Any octets -/

/-- The configuration that octets begin with, and the names of its fields as they were met. -/
def decodeNoted (b : Bytes) : Except Failure (Config × List String) :=
  Cbor.decode (noted fields skipUnknown .empty (fun d => .ok (d.overriding default)) maxDepth) b

/-- Reading a field of a configuration sets that field. -/
theorem separate_fields : Separate fields := by
  intro f hf depth d start h c d' c' hr g hg
  have hset : ∀ {α : Type} {s : String} {get : Draft → Option α} {set : Draft → α → Draft}
      {r : Nat → Reader α}, (Field.ofReader s get set r).read depth d start h c = .ok (d', c') →
      ∃ v, d' = set d v := by
    intro α s get set r hr
    simp only [Field.ofReader, Reader.map] at hr
    split at hr
    · cases hr
    · next v _ _ =>
      cases hr
      exact ⟨v, rfl⟩
  simp only [fields, List.mem_cons, List.not_mem_nil, or_false] at hf hg
  rcases hf with rfl | rfl | rfl | rfl | rfl | rfl | rfl | rfl | rfl
  all_goals
    obtain ⟨v, rfl⟩ := hset hr
    rcases hg with rfl | rfl | rfl | rfl | rfl | rfl | rfl | rfl | rfl <;> simp [Field.ofReader]

/-- A draft with these fields makes a configuration that has the default elsewhere. -/
theorem overlay_overriding {d : Draft} (h : IsNoted fields (d, names)) :
    (d.overriding default).overlay names default = d.overriding default := by
  have hset : ∀ {α : Type} {s : String} {get : Draft → Option α} {set : Draft → α → Draft}
      {r : Nat → Reader α} (v : α), Field.ofReader s get set r ∈ fields →
      (if s ∈ names then (get d).getD v else v) = (get d).getD v := by
    intro α s get set r v hf
    by_cases hs : s ∈ names
    · exact if_pos hs
    · have hnone : get d = none := by
        rw [← Option.not_isSome_iff_eq_none]
        exact fun hd => hs ((h.isSet _ hf).1 hd)
      rw [if_neg hs, hnone]
      rfl
  have hfield : ∀ i, ∀ {f : Cbor.Field Draft}, fields[i]? = some f → f ∈ fields :=
    fun i _ hf => List.mem_of_getElem? hf
  simp only [overlay, Draft.overriding]
  rw [hset _ (hfield 0 rfl), hset _ (hfield 1 rfl), hset _ (hfield 2 rfl), hset _ (hfield 3 rfl),
    hset _ (hfield 4 rfl), hset _ (hfield 5 rfl), hset _ (hfield 6 rfl), hset _ (hfield 7 rfl),
    hset _ (hfield 8 rfl)]

/-- **What was met is all there is.** Noting the names changes nothing; and the names that were met
in octets that are accepted are names of different fields, and the other fields have their default.
-/
theorem decodeNoted_spec (b : Bytes) :
    decode b = (decodeNoted b).map Prod.fst ∧
      ∀ d names, decodeNoted b = .ok (d, names) →
        names.Nodup ∧ (∀ s ∈ names, s ∈ fields.map (·.name)) ∧
          d.overlay names default = d := by
  have hempty : ∀ f ∈ fields, f.isSet Draft.empty = false := by
    simp [fields, Field.ofReader, Draft.empty]
  obtain ⟨hsame, hnoted⟩ : decode b = (decodeNoted b).map Prod.fst ∧ ∀ d names,
      decodeNoted b = .ok (d, names) → ∃ draft : Draft,
        Except.ok (draft.overriding default) = Except.ok d ∧ IsNoted fields (draft, names) :=
    decode_noted separate_fields hempty (fun d => .ok (d.overriding default)) b
  refine ⟨hsame, fun d names hd => ?_⟩
  obtain ⟨draft, hdraft, h⟩ := hnoted d names hd
  cases hdraft
  exact ⟨h.nodup, h.known, overlay_overriding h⟩

/-! ## Maps of any items -/

theorem find?_of_mem {f : Cbor.Field Draft} (hf : f ∈ fields) :
    fields.find? (fun g => Text.Utf8.encode g.name == Text.Utf8.encode f.name) = some f := by
  simp only [fields, List.mem_cons, List.not_mem_nil, or_false] at hf
  rcases hf with rfl | rfl | rfl | rfl | rfl | rfl | rfl | rfl | rfl <;> rfl

/-- The reader of a field stops behind its value, unless that is a map of one entry in the place of a
role or of an attestation type. -/
theorem ends_field {f : Cbor.Field Draft} (hf : f ∈ fields) {w : Bytes} (hw : IsItem w)
    (hm : f.name = "role" ∨ f.name = "attestation_type" → ¬ AnnouncesOneEntry w) (depth : Nat)
    (draft : Draft) : Ends (f.read depth draft).run w := by
  simp only [fields, List.mem_cons, List.not_mem_nil, or_false] at hf
  rcases hf with rfl | rfl | rfl | rfl | rfl | rfl | rfl | rfl | rfl
  · exact ((spans_variant hw (hm (.inl rfl))).map _).run
  · exact ((spans_variant hw (hm (.inr rfl))).map _).run
  · exact ((stops_uint32.map _).map _).run hw
  · exact ((Measurements.stops_reader depth).map _).run hw
  · exact ((Duration.stops_reader depth).map _).run hw
  · exact ((Duration.stops_reader depth).map _).run hw
  · exact (stops_boolean.map _).run hw
  · exact (stops_text.map _).run hw
  · exact (stops_text.map _).run hw

/-- A key that spells the name of a role or of an attestation type. -/
def IsChoiceKey (k : Bytes) : Prop :=
  Spells (Text.Utf8.encode "role") k ∨ Spells (Text.Utf8.encode "attestation_type") k

/-- **A map that has a field twice is refused.** -/
theorem decode_repeated {before later : List (Bytes × Bytes)} {e : Bytes × Bytes} {b : Bytes}
    {s : String} (hb : IsMapOf (before ++ e :: later) b)
    (hitems : ∀ g ∈ before, IsItem g.1 ∧ IsItem g.2) (hk : IsItem e.1)
    (hs : s ∈ fields.map (·.name)) (hfirst : ∃ g ∈ before, Spells (Text.Utf8.encode s) g.1)
    (hsecond : Spells (Text.Utf8.encode s) e.1)
    (hchoice : ∀ g ∈ before, IsChoiceKey g.1 → ¬ AnnouncesOneEntry g.2) (x : Bytes) :
    ∃ failure, decode (b ++ x) = .error failure := by
  obtain ⟨f, hf, rfl⟩ := List.mem_map.1 hs
  refine refuses_repeated separate_fields stopsUnknown_skipUnknown (find?_of_mem hf) hb hitems
    (fun g hg f hf hspells depth draft => ?_) hk hfirst hsecond x
  refine ends_field hf (hitems g hg).2 (fun hname => hchoice g hg ?_) depth draft
  rcases hname with hname | hname
  · exact .inl (hname ▸ hspells)
  · exact .inr (hname ▸ hspells)

/-- **A partial configuration is the default, overridden.** Any entries of a configuration with
different names, in any order and whatever follows them, are read back as the configuration's fields
of these names over the default; in particular all of them as the configuration, and none of them as
the default. A second entry of a field is refused, whatever it holds and whatever follows it.

So is every map of items in which a key spells the name of a field that a key before it has spelled,
whatever the other entries are, known or unknown, and in whatever form all of them are written;
unless a role or an attestation type before it is given as a map of one entry. And in whatever
octets are accepted, the reader has met each field at most once, and given those that it has not met
their default.

A duration of whole seconds and less than a second of nanoseconds is any duration; lengths in memory
are below `2 ^ 64`. -/
theorem partial_is_default_overridden :
    (∀ c : Config, c.IsWritable →
      (∀ es : List (String × Bytes), (∀ e ∈ es, e ∈ c.entries) → (es.map (·.1)).Nodup →
        (∀ x, decode (Write.record es ++ x) = .ok (c.overlay (es.map (·.1)) default)) ∧
        ∀ s ∈ es.map (·.1), ∀ w more x, (es ++ (s, w) :: more).length < headRange →
          decode (Write.record (es ++ (s, w) :: more) ++ x) =
            .error (.refused none (.duplicateField s))) ∧
      ∀ x, decode (c.encode ++ x) = .ok c) ∧
    (∀ x, decode (Write.record [] ++ x) = .ok default) ∧
    (∀ before e later b s, IsMapOf (before ++ e :: later) b →
      (∀ g ∈ before, IsItem g.1 ∧ IsItem g.2) → IsItem e.1 → s ∈ fields.map (·.name) →
      (∃ g ∈ before, Spells (Text.Utf8.encode s) g.1) → Spells (Text.Utf8.encode s) e.1 →
      (∀ g ∈ before, IsChoiceKey g.1 → ¬ AnnouncesOneEntry g.2) →
        ∀ x, ∃ failure, decode (b ++ x) = .error failure) ∧
    ∀ b, decode b = (decodeNoted b).map Prod.fst ∧
      ∀ d names, decodeNoted b = .ok (d, names) →
        names.Nodup ∧ (∀ s ∈ names, s ∈ fields.map (·.name)) ∧
          d.overlay names default = d := by
  refine ⟨fun c hc => ⟨fun es hes hn => ⟨decode_record hc hes hn, ?_⟩, fun x => ?_⟩, fun x => ?_,
    fun before e later b s hb hitems hk hs hfirst hsecond hchoice =>
      decode_repeated hb hitems hk hs hfirst hsecond hchoice, decodeNoted_spec⟩
  · exact fun s hs w more x hl => decode_duplicate hc hes hn hs w hl x
  · have h := decode_record hc (fun e he => he) c.nodup_entries x
    rwa [overlay_entries] at h
  · have hr : Reads (reader 256) (Write.record []) default :=
      reads_record Draft.empty (by decide) (.nil _) rfl
    exact hr.decode_append x

/-- A configuration that differs from the default in its role, a value and a timeout. -/
def plainPart : Config :=
  { default with
    role := .initiator
    expectedMeasurements := .ofList [(3, [1, 2])]
    measurementTimeout := ⟨2, 5⟩ }

/-- The entries of a map that has a role, something unknown, and the role again. -/
def plainRepeat : List (String × Bytes) :=
  [("role", Write.text "acceptor"), ("x", Write.text "self_description"),
    ("role", Write.text "acceptor")]

/-- Two of its entries, the later one first, are read, but not together with a second role; nor is a
map that has a role on both sides of something unknown. -/
theorem plainPart_decoded :
    let es := [("measurement_timeout", plainPart.measurementTimeout.encode),
      ("role", plainPart.role.write)]
    plainPart.IsWritable ∧ (∀ e ∈ es, e ∈ plainPart.entries) ∧ (es.map (·.1)).Nodup ∧
      decode (Write.record es) =
        .ok { default with role := .initiator, measurementTimeout := ⟨2, 5⟩ } ∧
      decode (Write.record (es ++ [("role", [])])) =
        .error (.refused none (.duplicateField "role")) ∧
      IsMapOf (plainRepeat.map fun e => (Write.text e.1, e.2)) (Write.record plainRepeat) ∧
      ∃ failure, decode (Write.record plainRepeat) = .error failure := by
  intro es
  have hw : plainPart.IsWritable := ⟨by decide, by decide, by decide +kernel⟩
  have hes : ∀ e ∈ es, e ∈ plainPart.entries := by decide +kernel
  have hn : (es.map (·.1)).Nodup := by decide
  obtain ⟨hparts, -, hrepeated, -⟩ := partial_is_default_overridden
  obtain ⟨hpart, -⟩ := hparts plainPart hw
  obtain ⟨hread, hrefused⟩ := hpart es hes hn
  have h := hread []
  rw [List.append_nil] at h
  have h' := hrefused "role" (by decide) [] [] [] (by decide)
  rw [List.append_nil] at h'
  have hmap : IsMapOf (plainRepeat.map fun e => (Write.text e.1, e.2))
      (Write.record plainRepeat) := isMapOf_record (by decide)
  have hrole : Spells (Text.Utf8.encode "role") (Write.text "role") := spells_text (by decide)
  have hbefore : ∀ g ∈ [(Write.text "role", Write.text "acceptor"),
      (Write.text "x", Write.text "self_description")],
      (IsItem g.1 ∧ IsItem g.2) ∧ ¬ AnnouncesOneEntry g.2 := by
    intro g hg
    simp only [List.mem_cons, List.not_mem_nil, or_false] at hg
    rcases hg with rfl | rfl
    · exact ⟨⟨isItem_text (by decide), isItem_text (by decide)⟩,
        not_announcesOneEntry_text (by decide)⟩
    · exact ⟨⟨isItem_text (by decide), isItem_text (by decide)⟩,
        not_announcesOneEntry_text (by decide)⟩
  obtain ⟨failure, hfailure⟩ := hrepeated _ (Write.text "role", Write.text "acceptor") []
    (Write.record plainRepeat) "role" hmap (fun g hg => (hbefore g hg).1) (isItem_text (by decide))
    (by decide) ⟨_, List.mem_cons_self, hrole⟩ hrole (fun g hg _ => (hbefore g hg).2) []
  rw [List.append_nil] at hfailure
  exact ⟨hw, hes, hn, h, h', hmap, failure, hfailure⟩

/-- The entries of a map in which the role is given twice, at first as a map of one entry. -/
def repeatedRole : List (String × Bytes) :=
  [("role", [0xA1] ++ Write.text "acceptor" ++ Write.text "self_description"),
    ("role", Write.text "acceptor")]

/-- Both values are single items, and the name of both is the same; but the value of the one entry
is met as a name and the second name as its value, so the map is accepted. -/
theorem repeatedRole_accepted :
    (∀ e ∈ repeatedRole, (skip 255).run (.ofBytes e.2) = .ok ((), ⟨[], e.2.length⟩)) ∧
      repeatedRole.map (·.1) = ["role", "role"] ∧
      decode (Write.record repeatedRole) = .ok { default with selfDescription := "role" } := by
  decide +kernel

end Config
end AttestedChannel
