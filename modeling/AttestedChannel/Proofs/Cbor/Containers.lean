import AttestedChannel.Cbor.Skip
import AttestedChannel.Proofs.Cbor.Extent

/-!
# Where containers end

The items of a container are read one after the other, from one state into another (`Steps`). If
each of them is read up to its end, reading goes on behind the first ones whatever comes next
(`readItems_goes_on`, `readUntilStop_goes_on`), so it ends where the container does
(`ends_readContainer`), and the next item is met in the state that the first ones lead to
(`steps_of_readContainer`).

Skipping is by recursion on the depth: what is skipped inside an item is skipped as a whole, so the
item is (`stops_skip`).
-/

namespace AttestedChannel.Cbor

variable {α σ : Type}

/-! ## Items in a row -/

/-- The reader, started behind the head of these octets, makes `a` of them. -/
def Makes (r : Reader α) (w : Bytes) (a : α) : Prop :=
  ∃ v h b, w = v ++ b ∧ IsHead v h ∧ ∃ start rest o d, r start h ⟨b ++ rest, o⟩ = .ok (a, d)

/-- The octets are read one after the other, from one state into another. -/
inductive Steps (item : ItemReader σ) : σ → List Bytes → σ → Prop
  | nil (s : σ) : Steps item s [] s
  | cons {s t u : σ} {w : Bytes} {ws : List Bytes} (hw : Makes (item s) w t)
      (hws : Steps item t ws u) : Steps item s (w :: ws) u

theorem readUntilStop_of_ne {item : ItemReader σ} {fuel : Nat} {s : σ} {h : Head} {c d : Cursor}
    (hread : Head.read c = .ok (h, d)) (hh : h ≠ .stop) :
    readUntilStop item (fuel + 1) s c =
      match (item s).again c.offset h d with
      | .error e => .error e
      | .ok (s, d) => readUntilStop item fuel s d := by
  rw [readUntilStop, hread]
  cases h with
  | stop => exact absurd rfl hh
  | _ => rfl

theorem readUntilStop_of_stop {item : ItemReader σ} {fuel : Nat} {s : σ} {c d : Cursor}
    (hread : Head.read c = .ok (.stop, d)) : readUntilStop item (fuel + 1) s c = .ok (s, d) := by
  rw [readUntilStop, hread]

section

variable {item : ItemReader σ} {ws : List Bytes} {s t : σ} {rest : Bytes} {o : Nat} {d : Cursor}

/-- Reading goes on behind the first items of a container that announces their number. -/
theorem readItems_goes_on (hws : ∀ w ∈ ws, ∀ s, Spans (item s) w) {n : Nat}
    (h : readItems item (ws.length + n) s ⟨ws.flatten ++ rest, o⟩ = .ok (t, d)) :
    ∃ s' o', Steps item s ws s' ∧ readItems item n s' ⟨rest, o'⟩ = .ok (t, d) := by
  induction ws generalizing s o with
  | nil =>
    rw [List.length_nil, Nat.zero_add] at h
    exact ⟨s, o, .nil s, h⟩
  | cons w ws ih =>
    obtain ⟨⟨v, g, b, rfl, hv, hg, hb⟩, hws'⟩ := (List.forall_mem_cons.1 hws).imp_left (· s)
    rw [List.length_cons, Nat.add_right_comm, List.flatten_cons, List.append_assoc,
      List.append_assoc, readItems] at h
    obtain ⟨o', hrun⟩ := run_of_isHead hv (item s) (b ++ (ws.flatten ++ rest)) o
    rw [hrun] at h
    split at h
    · cases h
    · next s' d' hd =>
      obtain ⟨r, o''⟩ := d'
      cases (hb o).rest_eq hd
      obtain ⟨s'', o'', hsteps, h⟩ := ih hws' h
      exact ⟨s'', o'', .cons ⟨v, g, b, rfl, hv, o, _, _, _, hd⟩ hsteps, h⟩

/-- Reading goes on behind the first items of a container that ends at a stop. -/
theorem readUntilStop_goes_on (hws : ∀ w ∈ ws, ∀ s, Spans (item s) w) {fuel : Nat}
    (h : readUntilStop item fuel s ⟨ws.flatten ++ rest, o⟩ = .ok (t, d)) :
    ∃ fuel' s' o', Steps item s ws s' ∧
      readUntilStop item fuel' s' ⟨rest, o'⟩ = .ok (t, d) := by
  induction ws generalizing fuel s o with
  | nil => exact ⟨fuel, s, o, .nil s, h⟩
  | cons w ws ih =>
    obtain ⟨⟨v, g, b, rfl, hv, hg, hb⟩, hws'⟩ := (List.forall_mem_cons.1 hws).imp_left (· s)
    cases fuel with
    | zero => cases h
    | succ fuel =>
      rw [List.flatten_cons, List.append_assoc, List.append_assoc] at h
      obtain ⟨o', hread⟩ := hv.read (b ++ (ws.flatten ++ rest)) o
      rw [readUntilStop_of_ne hread hg] at h
      split at h
      · cases h
      · next s' d' hd =>
        obtain ⟨r, o''⟩ := d'
        cases (hb _).rest_eq hd
        obtain ⟨fuel', s'', o'', hsteps, h⟩ := ih hws' h
        exact ⟨fuel', s'', o'', .cons ⟨v, g, b, rfl, hv, _, _, _, _, hd⟩ hsteps, h⟩

/-- **A container ends where its body does.** -/
theorem ends_readContainer (hws : ∀ w ∈ ws, ∀ s, Spans (item s) w) {n : Option Nat} {b : Bytes}
    (hb : Closes ws.length ws.flatten n b) (s : σ) : Ends (readContainer item n s) b := by
  refine ⟨fun {rest o t d} h => ?_⟩
  cases hb with
  | counted =>
    obtain ⟨s', o', -, h⟩ := readItems_goes_on (n := 0) hws h
    cases h
    rfl
  | @stopped z hz =>
    rw [List.append_assoc] at h
    obtain ⟨fuel, s', o', -, h⟩ := readUntilStop_goes_on hws h
    cases fuel with
    | zero => cases h
    | succ fuel =>
      obtain ⟨o'', hread⟩ := hz.read rest o'
      rw [readUntilStop_of_stop hread] at h
      cases h
      rfl

/-- A container that is accepted has accepted the item behind its first ones, whatever that is. -/
theorem steps_of_readContainer (hws : ∀ w ∈ ws, ∀ s, Spans (item s) w) {n : Option Nat} {v : Bytes}
    {h : Head} (hv : IsHead v h) (hh : h ≠ .stop) (hn : ∀ m, n = some m → ws.length < m)
    (hd : readContainer item n s ⟨ws.flatten ++ (v ++ rest), o⟩ = .ok (t, d)) :
    ∃ s', Steps item s ws s' ∧ ∃ start o' t' d', item s' start h ⟨rest, o'⟩ = .ok (t', d') := by
  cases n with
  | some m =>
    obtain ⟨k, rfl⟩ := Nat.exists_eq_add_of_lt (hn m rfl)
    rw [Nat.add_assoc] at hd
    obtain ⟨s', o', hsteps, hd⟩ := readItems_goes_on hws hd
    rw [readItems] at hd
    obtain ⟨o'', hrun⟩ := run_of_isHead hv (item s') rest o'
    rw [hrun] at hd
    split at hd
    · cases hd
    · next s'' d' hitem => exact ⟨s', hsteps, _, _, s'', d', hitem⟩
  | none =>
    obtain ⟨fuel, s', o', hsteps, hd⟩ := readUntilStop_goes_on hws hd
    cases fuel with
    | zero => cases hd
    | succ fuel =>
      obtain ⟨o'', hread⟩ := hv.read rest o'
      rw [readUntilStop_of_ne hread hh] at hd
      split at hd
      · cases hd
      · next s'' d' hitem => exact ⟨s', hsteps, _, _, s'', d', hitem⟩

end

theorem stops_octets (depth : Nat) : Stops (octets depth) := by
  refine Stops.untagged ⟨fun {h b} hb start => ⟨fun {rest o a d} hd => ?_⟩⟩
  cases h with
  | array n =>
    obtain ⟨ws, hws, hc⟩ := hb.of_array
    dsimp only at hd
    split at hd
    · cases hd
    · split at hd <;> cases hd
      next hread =>
      exact (ends_readContainer (fun w hw read => (stops_uint8.map _).spans (hws w hw)) hc
        []).rest_eq hread
  | bytes n =>
    obtain ⟨s, hc⟩ := hb.of_bytes
    exact (ends_readBytes hc start).rest_eq hd
  | _ => cases hd

/-! ## Skipping -/

theorem spans_skipEntry {r : Reader Unit} (hr : Stops r) {es : List (Bytes × Bytes)}
    (hes : ∀ e ∈ es, IsItem e.1 ∧ IsItem e.2) :
    ∀ w ∈ entryOctets es, ∀ u, Spans (skipEntry r u) w := by
  intro w hw u
  obtain ⟨e, he, rfl⟩ := List.mem_map.1 hw
  obtain ⟨hk, hv⟩ := hes e he
  refine hr.spans_bind (g := fun _ => r.run) hk (fun _ => hr.run hv) fun {start h c b d} hd => ?_
  unfold skipEntry at hd
  split at hd
  · cases hd
  · next u' c' hfirst => exact ⟨u', c', hfirst, hd⟩

/-- An item is skipped as a whole, if the items inside it are. -/
theorem stops_skipWith {inner : Option (Reader Unit)} (hi : ∀ r, inner = some r → Stops r) :
    Stops (skipWith inner) := by
  refine ⟨fun {h b} hb start => ⟨fun {rest o u d} hd => ?_⟩⟩
  unfold skipWith at hd
  cases h with
  | unsigned n =>
    cases hb.of_isAtom (.unsigned n)
    cases hd
    rfl
  | negative n =>
    cases hb.of_isAtom (.negative n)
    cases hd
    rfl
  | float x =>
    cases hb.of_isAtom (.float x)
    cases hd
    rfl
  | simple n =>
    cases hb.of_isAtom (.simple n)
    split at hd <;> first | contradiction | (cases hd; rfl)
  | stop => cases hd
  | bytes n =>
    obtain ⟨s, hc⟩ := hb.of_bytes
    dsimp only at hd
    split at hd <;> cases hd
    exact (ends_readBytes hc _).rest_eq ‹_›
  | text n =>
    obtain ⟨s, hc⟩ := hb.of_text
    dsimp only at hd
    split at hd <;> cases hd
    exact (ends_readText hc _).rest_eq ‹_›
  | array n =>
    obtain ⟨ws, hws, hc⟩ := hb.of_array
    cases inner with
    | none => cases hd
    | some r =>
      exact (ends_readContainer (fun w hw _ => (hi r rfl).spans (hws w hw)) hc ()).rest_eq hd
  | map n =>
    obtain ⟨es, hes, hc⟩ := hb.of_map
    cases inner with
    | none => cases hd
    | some r =>
      exact (ends_readContainer (spans_skipEntry (hi r rfl) hes) hc ()).rest_eq hd
  | tag t =>
    obtain ⟨v, g, b, rfl, hv, hb⟩ := hb.of_tag
    dsimp only at hd
    split at hd
    · -- a bignum, or an item behind a tag that is looked at first
      rw [List.append_assoc] at hd
      obtain ⟨o', hread⟩ := hv.read (b ++ rest) o
      rw [hread] at hd
      dsimp only at hd
      split at hd
      · next n inner =>
        obtain ⟨s, hc⟩ := hb.of_bytes
        split at hd
        · unfold skipBignum at hd
          split at hd
          · cases hd
          · split at hd <;> cases hd
            exact (ends_readBignum hc _).rest_eq ‹_›
        · split at hd
          · cases hd
          · exact ((hi _ rfl).again.ends hb _).rest_eq hd
      · cases hd
      · exact ((hi _ rfl).again.ends hb _).rest_eq hd
    · cases inner with
      | none => cases hd
      | some r => exact (Ends.run hv ((hi r rfl).ends hb)).rest_eq hd

/-- **Skipping an item stops behind it**, at any depth. -/
theorem stops_skip (depth : Nat) : Stops (skip depth) := by
  induction depth with
  | zero => exact stops_skipWith nofun
  | succ depth ih =>
    refine stops_skipWith fun r hr => ?_
    cases hr
    exact ih

end AttestedChannel.Cbor
