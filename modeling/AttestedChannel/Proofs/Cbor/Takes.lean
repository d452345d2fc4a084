import AttestedChannel.Cbor.Record
import AttestedChannel.Cbor.Write

/-!
# Exact readings

`Takes f w a` says that a reading `f` takes exactly the octets `w` and makes `a` of them: whatever
follows is left alone, and when octets are missing at the end the input ends too early. Both halves
pass through sequences of readings (`Takes.bind`), so a format is shown to be read back piece by
piece, and with it that no piece can be cut short.

`Reads r w a` says the same of a reader of items. It keeps the head apart, because some readers look
at the head first (`Reads.optional`) and others skip tags (`Reads.untagged`).
-/

namespace AttestedChannel.Cbor

variable {α β σ : Type}

/-- The reading takes exactly these octets and makes `a` of them. -/
structure Takes (f : Cursor → Except Failure (α × Cursor)) (w : Bytes) (a : α) : Prop where
  /-- what follows is left alone -/
  whole : ∀ rest o, f ⟨w ++ rest, o⟩ = .ok (a, ⟨rest, o + w.length⟩)
  /-- no octet can be missing at the end -/
  cut : ∀ p o, p <+: w → p.length < w.length → f ⟨p, o⟩ = .error .endOfInput

/-! ## Sequences -/

/-- A proper front of two pieces is one of the first piece, or the first piece and a proper front of
the second. -/
theorem prefix_append_cases {p v w : Bytes} (h : p <+: v ++ w) (hl : p.length < (v ++ w).length) :
    (p <+: v ∧ p.length < v.length) ∨ ∃ q, p = v ++ q ∧ q <+: w ∧ q.length < w.length := by
  rw [List.length_append] at hl
  by_cases hv : p.length < v.length
  · exact .inl ⟨List.prefix_of_prefix_length_le h (List.prefix_append v w) (Nat.le_of_lt hv), hv⟩
  · have hvp : v <+: p :=
      List.prefix_of_prefix_length_le (List.prefix_append v w) h (Nat.le_of_not_lt hv)
    obtain ⟨q, rfl⟩ := hvp
    refine .inr ⟨q, rfl, (List.prefix_append_right_inj v).1 h, ?_⟩
    rw [List.length_append] at hl
    omega

/-- A reading that takes nothing. -/
theorem Takes.done {f : Cursor → Except Failure (α × Cursor)} {a : α} (h : ∀ c, f c = .ok (a, c)) :
    Takes f [] a where
  whole _ _ := h _
  cut _ _ _ hl := absurd hl (Nat.not_lt_zero _)

/-- One reading after the other: `k` begins as `f` does, and where `f` makes `a` it goes on as `g`.
What comes second may look at where the first began. -/
theorem Takes.bind {f : Cursor → Except Failure (α × Cursor)}
    {g : Cursor → Cursor → Except Failure (β × Cursor)} {k : Cursor → Except Failure (β × Cursor)}
    {v w : Bytes} {a : α} {b : β} (hf : Takes f v a) (hg : ∀ c, Takes (g c) w b)
    (hok : ∀ c d, f c = .ok (a, d) → k c = g c d)
    (herror : ∀ c e, f c = .error e → k c = .error e) : Takes k (v ++ w) b where
  whole rest o := by
    have hv := hf.whole (w ++ rest) o
    rw [List.append_assoc, hok _ _ hv, (hg _).whole, List.length_append, Nat.add_assoc]
  cut p o hp hl := by
    -- the input ends within the first reading or within the second
    rcases prefix_append_cases hp hl with ⟨hp, hl⟩ | ⟨q, rfl, hq, hl⟩
    · exact herror _ _ (hf.cut p o hp hl)
    · rw [hok _ _ (hf.whole q o), (hg _).cut q _ hq hl]

/-- A reading whose result is changed. -/
theorem Takes.map {f : Cursor → Except Failure (α × Cursor)}
    {k : Cursor → Except Failure (β × Cursor)} {w : Bytes} {a : α} {b : β} (hf : Takes f w a)
    (hok : ∀ c d, f c = .ok (a, d) → k c = .ok (b, d))
    (herror : ∀ c e, f c = .error e → k c = .error e) : Takes k w b := by
  rw [← List.append_nil w]
  exact hf.bind (g := fun _ d => .ok (b, d)) (fun _ => .done fun _ => rfl) hok herror

theorem Takes.congr {f g : Cursor → Except Failure (α × Cursor)} {w : Bytes} {a : α}
    (hf : Takes f w a) (h : ∀ c, g c = f c) : Takes g w a := by
  rw [funext h]
  exact hf

/-- A given number of octets. -/
theorem takes_take (b : Bytes) : Takes (Cursor.take b.length) b b where
  whole rest o := Cursor.take_append b rest o
  cut p o _ hl := by
    unfold Cursor.take
    rw [Bytes.take?_eq_none.2 hl]

/-! ## Heads -/

theorem toNat_lead (major minor : Nat) (hm : major < 8) (hn : minor < 32) :
    (UInt8.ofNat (major * 32 + minor)).toNat = major * 32 + minor := by
  simp only [UInt8.toNat_ofNat']
  omega

theorem lead_div (major minor : Nat) (hm : major < 8) (hn : minor < 32) :
    (UInt8.ofNat (major * 32 + minor)).toNat / 32 = major := by
  rw [toNat_lead major minor hm hn]
  omega

theorem lead_mod (major minor : Nat) (hm : major < 8) (hn : minor < 32) :
    (UInt8.ofNat (major * 32 + minor)).toNat % 32 = minor := by
  rw [toNat_lead major minor hm hn]
  omega

namespace Head

/-- A head whose argument is in its first octet. -/
theorem takes_read_short (major n : Nat) (hm : major < 8) (hn : n < 24) :
    Takes read [UInt8.ofNat (major * 32 + n)] (ofArgument major n) where
  whole rest o := by
    have hd := lead_div major n hm (by omega)
    have hr := lead_mod major n hm (by omega)
    simp only [read, List.cons_append, List.nil_append, hd, hr, if_pos hn, List.length_singleton]
  cut p o _ hl := by
    have hp : p = [] := List.length_eq_zero_iff.1 (Nat.lt_one_iff.1 hl)
    rw [hp]
    rfl

/-- A head whose argument follows in one, two, four or eight octets. -/
theorem takes_read_wide {major k n : Nat} (hm : major < 7) (hk : k < 4)
    (hn : n < Bytes.capacity (1 <<< k)) :
    Takes read (UInt8.ofNat (major * 32 + (24 + k)) :: Bytes.bigEndian (1 <<< k) n)
      (ofArgument major n) where
  whole rest o := by
    have hd := lead_div major (24 + k) (by omega) (by omega)
    have hr := lead_mod major (24 + k) (by omega) (by omega)
    have ht := (takes_take (Bytes.bigEndian (1 <<< k) n)).whole rest (o + 1)
    rw [Bytes.length_bigEndian] at ht
    -- only simple values depend on the width of their argument
    have hw : ofWide major (1 <<< k) n = ofArgument major n := if_neg (by omega)
    simp only [read, List.cons_append, hd, hr, Nat.add_sub_cancel_left, ht,
      Bytes.toNat_bigEndian hn, hw, ite_self]
    rw [if_neg (by omega), if_pos (by omega)]
    simp only [List.length_cons, Bytes.length_bigEndian, Except.ok.injEq, Prod.mk.injEq,
      Cursor.mk.injEq, true_and]
    omega
  cut p o hp hl := by
    cases p with
    | nil => rfl
    | cons x q =>
      obtain ⟨rfl, hq⟩ := List.cons_prefix_cons.1 hp
      have hd := lead_div major (24 + k) (by omega) (by omega)
      have hr := lead_mod major (24 + k) (by omega) (by omega)
      have ht := (takes_take (Bytes.bigEndian (1 <<< k) n)).cut q (o + 1) hq
        (Nat.lt_of_succ_lt_succ hl)
      rw [Bytes.length_bigEndian] at ht
      simp only [read, hd, hr, Nat.add_sub_cancel_left, ht]
      rw [if_neg (by omega), if_pos (by omega)]

/-- **A head is read back**, with an argument in its shortest form. -/
theorem takes_read_write {major n : Nat} (hm : major < 7) (hn : n < 0x10000000000000000) :
    Takes read (write major n) (ofArgument major n) := by
  unfold write
  dsimp only
  split
  · next h => exact takes_read_short major n (by omega) h
  · split
    · next h => exact takes_read_wide (k := 0) hm (by decide) h
    · split
      · next h => exact takes_read_wide (k := 1) hm (by decide) h
      · split
        · next h => exact takes_read_wide (k := 2) hm (by decide) h
        · exact takes_read_wide (k := 3) hm (by decide) hn

/-- Whether the head is neither a tag nor an absent value. -/
def IsPlain : Head → Prop
  | .tag _ => False
  | .simple n => n ≠ 22 ∧ n ≠ 23
  | _ => True

end Head

/-! ## Readers -/

theorem Takes.reader_map {r : Reader α} {start : Nat} {h : Head} {w : Bytes} {a : α}
    (hr : Takes (r start h) w a) (f : α → β) : Takes ((r.map f) start h) w (f a) :=
  hr.map (fun c d hd => by simp only [Reader.map, hd]) fun c e he => by
    simp only [Reader.map, he]

/-- A reading does not depend on where the item is reported to start. -/
theorem Takes.located {f : Nat → Cursor → Except Failure (α × Cursor)} {w : Bytes} {a : α}
    (start : Cursor → Nat) (hf : ∀ n, Takes (f n) w a) : Takes (fun c => f (start c) c) w a where
  whole rest o := (hf _).whole rest o
  cut p o hp hl := (hf _).cut p o hp hl

/-- Nor does a reader that takes over after the head. -/
theorem Takes.again {r : Reader α} {h : Head} {w : Bytes} {a : α} (start : Nat)
    (hr : ∀ start, Takes (r start h) w a) : Takes (r.again start h) w a :=
  .located (fun c => c.startOf h) hr

/-- Behind a tag a reader that skips tags begins anew. -/
theorem untagged_tag (r : Reader α) (start t : Nat) (c : Cursor) :
    untagged r start (.tag t) c = Reader.run (untagged r) c := by
  rw [untagged.eq_def]
  dsimp only
  unfold Reader.run
  split
  · next e he => rw [he]
  · next h d he => rw [he]

/-- The reader takes exactly these octets, the head of the item and what follows it, and makes `a`
of them. -/
def Reads (r : Reader α) (w : Bytes) (a : α) : Prop :=
  ∃ h v b, w = v ++ b ∧ h.IsPlain ∧ Takes Head.read v h ∧ ∀ start, Takes (r start h) b a

namespace Reads

variable {r : Reader α} {w : Bytes} {a : α}

theorem run (hr : Reads r w a) : Takes r.run w a := by
  obtain ⟨h, v, b, rfl, -, hv, hb⟩ := hr
  exact hv.bind (g := fun c => r c.offset h) (fun c => hb c.offset)
    (fun c d hd => by simp only [Reader.run, hd]) fun c e he => by simp only [Reader.run, he]

/-- The item is decoded whatever follows it. -/
theorem decode_append (hr : Reads r w a) (x : Bytes) : decode r (w ++ x) = .ok a := by
  simp only [decode, Cursor.ofBytes, hr.run.whole x 0]

theorem map (hr : Reads r w a) (f : α → β) : Reads (r.map f) w (f a) := by
  obtain ⟨h, v, b, rfl, hp, hv, hb⟩ := hr
  exact ⟨h, v, b, rfl, hp, hv, fun start => (hb start).reader_map f⟩

/-- A reader that skips tags reads what has none. -/
theorem untagged (hr : Reads r w a) : Reads (untagged r) w a := by
  obtain ⟨h, v, b, rfl, hp, hv, hb⟩ := hr
  refine ⟨h, v, b, rfl, hp, hv, fun start => (hb start).congr fun c => ?_⟩
  cases h with
  | tag n => exact hp.elim
  | _ => simp only [Cbor.untagged]

/-- A value that is there is read where it may be absent. -/
theorem optional (hr : Reads r w a) : Reads (optional r) w (some a) := by
  obtain ⟨h, v, b, rfl, hp, hv, hb⟩ := hr
  refine ⟨h, v, b, rfl, hp, hv, fun start => ?_⟩
  refine (Takes.again (r := r.map some) start fun start => (hb start).reader_map some).congr
    fun c => ?_
  unfold Cbor.optional
  split
  · exact absurd rfl hp.1
  · exact absurd rfl hp.2
  · rfl

/-- A reading that begins with a head. -/
theorem of_head (major : Nat) {n : Nat} (hm : major < 6) (hn : n < 0x10000000000000000) {b : Bytes}
    (hb : ∀ start, Takes (r start (Head.ofArgument major n)) b a) :
    Reads r (Head.write major n ++ b) a := by
  refine ⟨_, _, b, rfl, ?_, Head.takes_read_write (by omega) hn, hb⟩
  match major, hm with
  | 0, _ | 1, _ | 2, _ | 3, _ | 4, _ | 5, _ => exact trivial

end Reads

end AttestedChannel.Cbor
