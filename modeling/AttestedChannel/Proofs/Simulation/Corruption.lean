import AttestedChannel.Proofs.Simulation.Attesting

/-!
# No octet is corrupted unnoticed

The simulated quote is no signature, but it notices an octet that has become another one, wherever
it stands in the nonce or in a measured value. A step of the hash loses nothing: multiplying by an
odd number can be undone modulo `2 ^ 64`, so hashes that differ go on to differ
(`Fnv.step_left_inj`) and octets that differ make hashes differ (`Fnv.step_right_inj`). Behind the
octet the two byte strings are the same, and so their hashes never meet again, from whatever value
they start (`Fnv.hash_ne`). This goes for each of the four lanes of a quote by itself.

So evidence that an honest service has accepted is rejected with any single octet of its nonce, its
values or its quote replaced (`corruption_is_detected`).
-/

namespace AttestedChannel

/-! ## One octet for another -/

namespace Bytes

/-- The second byte string is the first one with an octet replaced by another. -/
def OneOctetOff (b b' : Bytes) : Prop := ∃ k x y, b[k]? = some x ∧ x ≠ y ∧ b' = b.set k y

variable {b b' : Bytes}

/-- What stands before and behind the octet is the same. -/
theorem oneOctetOff_iff :
    b.OneOctetOff b' ↔ ∃ p x y s, x ≠ y ∧ b = p ++ x :: s ∧ b' = p ++ y :: s := by
  constructor
  · rintro ⟨k, x, y, hx, hne, rfl⟩
    obtain ⟨hk, rfl⟩ := List.getElem?_eq_some_iff.1 hx
    refine ⟨b.take k, b[k], y, b.drop (k + 1), hne, ?_, ?_⟩
    · rw [← List.drop_eq_getElem_cons hk, List.take_append_drop]
    · rw [List.set_eq_take_append_cons_drop, if_pos hk]
  · rintro ⟨p, x, y, s, hne, rfl, rfl⟩
    refine ⟨p.length, x, y, ?_, hne, ?_⟩
    · rw [List.getElem?_append_right (Nat.le_refl _), Nat.sub_self, List.getElem?_cons_zero]
    · rw [List.set_append_right _ _ (Nat.le_refl _), Nat.sub_self, List.set_cons_zero]

theorem OneOctetOff.ne (h : b.OneOctetOff b') : b ≠ b' := by
  obtain ⟨p, x, y, s, hne, rfl, rfl⟩ := oneOctetOff_iff.1 h
  intro he
  exact hne (List.cons.inj (List.append_cancel_left he)).1

/-- An octet that is replaced in a part is replaced in the whole. -/
theorem OneOctetOff.within (h : b.OneOctetOff b') (p s : Bytes) :
    (p ++ b ++ s).OneOctetOff (p ++ b' ++ s) := by
  obtain ⟨q, x, y, t, hne, rfl, rfl⟩ := oneOctetOff_iff.1 h
  exact oneOctetOff_iff.2 ⟨p ++ q, x, y, t ++ s, hne, by simp, by simp⟩

theorem bigEndian_inj {w n n' : Nat} (hn : n < capacity w) (hn' : n' < capacity w) :
    bigEndian w n = bigEndian w n' ↔ n = n' := by
  constructor
  · intro h
    rw [← toNat_bigEndian hn, h, toNat_bigEndian hn']
  · exact congrArg _

end Bytes

namespace Measurements

/-- The second map is the first one with an octet of one value replaced by another. -/
def OneOctetOff (m m' : Measurements) : Prop :=
  ∃ i v v', m.get? i = some v ∧ v.OneOctetOff v' ∧ m' = m.insert i v'

/-- A value that is inserted anew takes the place of the old one. -/
theorem entries_insert {m : Measurements} {i : UInt8} {v : Bytes} (h : m.get? i = some v)
    (v' : Bytes) : ∃ es fs, m.entries = es ++ (i, v) :: fs ∧
      (m.insert i v').entries = es ++ (i, v') :: fs := by
  obtain ⟨es, fs, hes, -⟩ := List.lookup_eq_some_iff.1 h
  have hasc := m.ascending
  rw [hes] at hasc
  have hbelow : ∀ e ∈ es, e.1 < i := fun e he =>
    (List.pairwise_append.1 hasc).2.2 e he (i, v) List.mem_cons_self
  refine ⟨es, fs, hes, ?_⟩
  show insertEntry i v' m.entries = _
  rw [hes, insertEntry_append hbelow, insertEntry, if_neg (UInt8.lt_irrefl i), if_pos rfl]

end Measurements

/-- The second evidence is the first one with an octet replaced by another, in its nonce, in a
measured value or in its quote. -/
inductive Evidence.OneOctetOff (e : Evidence) : Evidence → Prop
  | nonce {n : Bytes} (h : e.nonce.OneOctetOff n) : OneOctetOff e { e with nonce := n }
  | value {m : Measurements} (h : e.measurements.OneOctetOff m) :
    OneOctetOff e { e with measurements := m }
  | quote {q : Bytes} (h : e.quote.OneOctetOff q) : OneOctetOff e { e with quote := q }

namespace Simulation

/-! ## The hash -/

namespace Fnv

/-- The number that undoes the factor of a step. -/
def primeInverse : UInt64 := 0xce965057aff6957b

theorem mul_prime_inj {h h' : UInt64} : h * prime = h' * prime ↔ h = h' := by
  have hinv : prime * primeInverse = 1 := by decide
  constructor
  · intro heq
    have hmul := congrArg (· * primeInverse) heq
    simpa only [UInt64.mul_assoc, hinv, UInt64.mul_one] using hmul
  · exact congrArg (· * prime)

/-- A step keeps hashes apart. -/
theorem step_left_inj {h h' : UInt64} {x : UInt8} : step h x = step h' x ↔ h = h' :=
  mul_prime_inj.trans (UInt64.xor_left_inj _)

/-- A step tells octets apart. -/
theorem step_right_inj {h : UInt64} {x y : UInt8} : step h x = step h y ↔ x = y :=
  mul_prime_inj.trans ((UInt64.xor_right_inj _).trans UInt8.toUInt64_inj)

/-- **Whatever follows keeps hashes apart.** -/
theorem hash_left_inj {h h' : UInt64} {b : Bytes} : hash h b = hash h' b ↔ h = h' := by
  induction b generalizing h h' with
  | nil => exact Iff.rfl
  | cons x b ih => exact ih.trans step_left_inj

theorem hash_append (start : UInt64) (b b' : Bytes) :
    hash start (b ++ b') = hash (hash start b) b' :=
  List.foldl_append

/-- **An octet that is replaced makes another hash**, from whatever value it starts. -/
theorem hash_ne {b b' : Bytes} (h : b.OneOctetOff b') (start : UInt64) :
    hash start b ≠ hash start b' := by
  obtain ⟨p, x, y, s, hne, rfl, rfl⟩ := Bytes.oneOctetOff_iff.1 h
  -- up to the octet the hashes are the same, and behind it they do not meet again
  rw [hash_append, hash_append]
  intro heq
  exact hne (step_right_inj.1 (hash_left_inj.1 heq))

end Fnv

/-! ## The quote -/

/-- Eight octets of a quote, by the number of their lane. -/
def lane (q : Bytes) (j : Nat) : Bytes := (q.drop (8 * j)).take 8

/-- Pieces of eight octets are found again in what is made of them. -/
theorem lane_flatMap {α : Type} {f : α → Bytes} (hf : ∀ a, (f a).length = 8) {l : List α} {j : Nat}
    {a : α} (h : l[j]? = some a) : lane (l.flatMap f) j = f a := by
  unfold lane
  induction l generalizing j with
  | nil => simp at h
  | cons c l ih =>
    cases j with
    | zero =>
      obtain rfl : c = a := by simpa using h
      rw [Nat.mul_zero, List.drop_zero, List.flatMap_cons, List.take_left' (hf c)]
    | succ j =>
      have hdrop : 8 * (j + 1) = (f c).length + 8 * j := by rw [hf]; omega
      rw [hdrop, List.flatMap_cons, List.drop_length_add_append]
      exact ih (by simpa using h)

/-- Each lane of a quote is a hash of what it covers. -/
theorem lane_quote {j : Nat} {start : UInt64} (h : quoteLanes[j]? = some start) (nonce : Bytes)
    (m : Measurements) :
    lane (quote nonce m) j = Bytes.bigEndian 8 (Fnv.hash start (quotedOctets nonce m)).toNat :=
  lane_flatMap (fun _ => Bytes.length_bigEndian 8 _) h

/-- An octet that is replaced in what a quote covers shows in every lane. -/
theorem lane_quote_ne {nonce nonce' : Bytes} {m m' : Measurements}
    (h : (quotedOctets nonce m).OneOctetOff (quotedOctets nonce' m')) {j : Nat} (hj : j < 4) :
    lane (quote nonce' m') j ≠ lane (quote nonce m) j := by
  have hstart : quoteLanes[j]? = some quoteLanes[j] := List.getElem?_eq_getElem hj
  rw [lane_quote hstart, lane_quote hstart, Ne, Bytes.bigEndian_inj (UInt64.toNat_lt _)
    (UInt64.toNat_lt _), UInt64.toNat_inj]
  exact (Fnv.hash_ne h _).symm

theorem quote_ne {nonce nonce' : Bytes} {m m' : Measurements}
    (h : (quotedOctets nonce m).OneOctetOff (quotedOctets nonce' m')) :
    quote nonce' m' ≠ quote nonce m := fun heq =>
  lane_quote_ne h (Nat.zero_lt_succ 3) (congrArg (lane · 0) heq)

/-- A quote covers every octet of the nonce. -/
theorem quotedOctets_nonce {nonce nonce' : Bytes} (h : nonce.OneOctetOff nonce')
    (m : Measurements) : (quotedOctets nonce m).OneOctetOff (quotedOctets nonce' m) := by
  have hwithin := h.within [] (m.entries.flatMap fun e => e.1 :: e.2)
  exact hwithin

/-- A quote covers every octet of every value. -/
theorem quotedOctets_value {m m' : Measurements} (h : m.OneOctetOff m') (nonce : Bytes) :
    (quotedOctets nonce m).OneOctetOff (quotedOctets nonce m') := by
  obtain ⟨i, v, v', hv, hoff, rfl⟩ := h
  obtain ⟨es, fs, hm, hm'⟩ := Measurements.entries_insert hv v'
  have hwithin := hoff.within (nonce ++ es.flatMap (fun e => e.1 :: e.2) ++ [i])
    (fs.flatMap fun e => e.1 :: e.2)
  rw [quotedOctets, quotedOctets, hm, hm']
  simpa using hwithin

/-! ## Verification -/

/-- The status that a service answers a request with, if it does. -/
def MeasurementService.status? (s : MeasurementService) (r : ServiceRequest) :
    Option ServiceStatus :=
  match (s.measure r).2 with
  | some (.ok reply) => some reply.status
  | _ => none

/-- An honest service accepts evidence that decodes, over the nonce of the request and with the
quote of its values, and it rejects all other octets. -/
theorem status?_of_honest {s : MeasurementService} {r : ServiceRequest} {octets : Bytes}
    (hs : s.behavior = .honest) (ho : r.operation = .verify) (hr : r.evidence = some octets) :
    s.status? r =
      match Evidence.decode octets with
      | .error _ => some .fail
      | .ok e =>
        if e.nonce = r.nonce ∧ e.quote = quote e.nonce e.measurements then some .pass
        else some .fail := by
  simp only [MeasurementService.status?, MeasurementService.measure, outcome?, hs, ho, verifyReply,
    hr, reduceCtorEq, if_false]
  cases Evidence.decode octets with
  | error f => rfl
  | ok e =>
    dsimp only
    by_cases hok : e.nonce = r.nonce ∧ e.quote = quote e.nonce e.measurements
    · rw [if_pos hok, if_neg (not_or.2 ⟨not_not_intro hok.1, not_not_intro hok.2⟩)]
    · rw [if_neg hok, if_pos (by rwa [ne_eq, ne_eq, ← not_and_or])]
      rfl

/-- What an honest service accepts is evidence with the right nonce and quote. -/
theorem exists_of_status?_eq_pass {s : MeasurementService} {r : ServiceRequest} {octets : Bytes}
    (hs : s.behavior = .honest) (ho : r.operation = .verify) (hr : r.evidence = some octets)
    (hpass : s.status? r = some .pass) :
    ∃ e, Evidence.decode octets = .ok e ∧ e.nonce = r.nonce ∧
      e.quote = quote e.nonce e.measurements := by
  rw [status?_of_honest hs ho hr] at hpass
  cases hd : Evidence.decode octets with
  | error f =>
    rw [hd] at hpass
    cases hpass
  | ok e =>
    rw [hd] at hpass
    dsimp only at hpass
    split at hpass
    · next hok => exact ⟨e, rfl, hok⟩
    · cases hpass

/-- Evidence that is right is right no more with one octet replaced. -/
theorem not_valid_of_oneOctetOff {e e' : Evidence} {nonce : Bytes} (h : e.OneOctetOff e')
    (hn : e.nonce = nonce) (hq : e.quote = quote e.nonce e.measurements) :
    ¬ (e'.nonce = nonce ∧ e'.quote = quote e'.nonce e'.measurements) := by
  rintro ⟨hn', hq'⟩
  cases h with
  | nonce h => exact h.ne (hn.trans hn'.symm)
  | value h => exact quote_ne (quotedOctets_value h e.nonce) (hq'.symm.trans hq)
  | quote h => exact h.ne (hq.trans hq'.symm)

/-- **No octet is corrupted unnoticed.** A nonce or a map of values with one octet replaced by another
has another quote, and the quotes differ in each of their four lanes. So where an honest service
accepts octets as evidence, it rejects all octets that are read as the same evidence with one octet
replaced, of a measured value, of the quote or of the nonce. The octets which that evidence is
written in are read so. -/
theorem corruption_is_detected :
    (∀ (nonce nonce' : Bytes) (m : Measurements), nonce.OneOctetOff nonce' →
      quote nonce' m ≠ quote nonce m ∧
        ∀ j, j < 4 → lane (quote nonce' m) j ≠ lane (quote nonce m) j) ∧
    (∀ (nonce : Bytes) (m m' : Measurements), m.OneOctetOff m' →
      quote nonce m' ≠ quote nonce m ∧
        ∀ j, j < 4 → lane (quote nonce m') j ≠ lane (quote nonce m) j) ∧
    ∀ (s : MeasurementService) (r : ServiceRequest) (octets : Bytes), s.behavior = .honest →
      r.operation = .verify → r.evidence = some octets → s.status? r = some .pass →
      ∃ e, Evidence.decode octets = .ok e ∧ ∀ e', e.OneOctetOff e' →
        (∀ octets', Evidence.decode octets' = .ok e' →
          s.status? { r with evidence := some octets' } = some .fail) ∧
        (e'.encode.length < 0x10000000000000000 → Evidence.decode e'.encode = .ok e') := by
  refine ⟨fun nonce nonce' m h => ?_, fun nonce m m' h => ?_, fun s r octets hs ho hr hpass => ?_⟩
  · have hoff := quotedOctets_nonce h m
    exact ⟨quote_ne hoff, fun j hj => lane_quote_ne hoff hj⟩
  · have hoff := quotedOctets_value h nonce
    exact ⟨quote_ne hoff, fun j hj => lane_quote_ne hoff hj⟩
  · obtain ⟨e, hd, hn, hq⟩ := exists_of_status?_eq_pass hs ho hr hpass
    refine ⟨e, hd, fun e' he => ⟨fun octets' hd' => ?_, fun hl => Evidence.decode_encode hl⟩⟩
    rw [status?_of_honest (r := { r with evidence := some octets' }) hs ho rfl, hd']
    exact if_neg (not_valid_of_oneOctetOff he hn hq)

/-- Two values, the second of which has an octet that is replaced: an honest service accepts the
evidence as it was quoted, and rejects it with the old quote and the new octet, for the new quote is
another one, down to its last lane. -/
theorem replaced_octet_rejected :
    let s := MeasurementService.ofBehavior .honest
    let m := Measurements.ofList [(3, [9]), (31, [7, 8])]
    let m' := m.insert 31 [7, 9]
    let r : ServiceRequest := ⟨.verify, .advanced, .ofIndices [3, 31], [2, 3], none⟩
    let e := evidenceFor r [2, 3] m
    s.status? { r with evidence := some e.encode } = some .pass ∧
      s.status? { r with evidence := some ({ e with measurements := m' } : Evidence).encode } =
        some .fail ∧
      lane (quote [2, 3] m') 3 ≠ lane (quote [2, 3] m) 3 := by
  intro s m m' r e
  have hoff : m.OneOctetOff m' := ⟨31, [7, 8], [7, 9], rfl, ⟨1, 8, 9, rfl, by decide, rfl⟩, rfl⟩
  have hpass : s.status? { r with evidence := some e.encode } = some .pass := by decide +kernel
  obtain ⟨-, hvalue, hverify⟩ := corruption_is_detected
  obtain ⟨e₀, hd, hreject⟩ :=
    hverify s { r with evidence := some e.encode } e.encode rfl rfl rfl hpass
  -- what the octets are decoded to is the evidence that was written
  rw [Evidence.decode_encode (by decide +kernel)] at hd
  cases hd
  obtain ⟨hfail, hread⟩ := hreject _ (.value hoff)
  exact ⟨hpass, hfail _ (hread (by decide +kernel)), (hvalue [2, 3] m m' hoff).2 3 (by decide)⟩

end Simulation

end AttestedChannel
