import AttestedChannel.Cbor.Record
import AttestedChannel.Proofs.Cbor.Grammar

/-!
# Where readers stop

A reader that accepts an item stops behind it (`Stops`), whatever the item is and whatever follows:
no octet of the item is left to be taken for the next one, and none of what follows is taken for
part of it. This is shown here of the readers of single items; where items are inside each other, it
follows in `Containers`. There is one exception, which is why this has to be shown at all: where one
of several names is wanted, a map that announces one entry is taken for its key, and the value of the
entry is left unread (`spans_variant` is about everything else).

That a reading fails is no matter here. So unlike an exact reading (`Takes`), which makes something
of given octets, `Ends` only says where a reading is if it succeeds.
-/

namespace AttestedChannel.Cbor

variable {α β σ : Type}

/-! ## Readings -/

/-- A reading that succeeds at these octets stops behind them, whatever follows. -/
structure Ends (f : Cursor → Except Failure (α × Cursor)) (w : Bytes) : Prop where
  rest_eq : ∀ {rest o a d}, f ⟨w ++ rest, o⟩ = .ok (a, d) → d.rest = rest

theorem Takes.ends {f : Cursor → Except Failure (α × Cursor)} {w : Bytes} {a : α}
    (h : Takes f w a) : Ends f w where
  rest_eq {rest o _ _} hf := by
    cases (h.whole rest o).symm.trans hf
    rfl

/-- One reading after the other; what comes second may look at where the first began. -/
theorem Ends.bind {f : Cursor → Except Failure (α × Cursor)}
    {g : Cursor → α → Cursor → Except Failure (β × Cursor)}
    {k : Cursor → Except Failure (β × Cursor)} {v w : Bytes} (hf : Ends f v)
    (hg : ∀ c a, Ends (g c a) w)
    (hk : ∀ {c b d}, k c = .ok (b, d) → ∃ a c', f c = .ok (a, c') ∧ g c a c' = .ok (b, d)) :
    Ends k (v ++ w) where
  rest_eq h := by
    rw [List.append_assoc] at h
    obtain ⟨a, ⟨r, o'⟩, hfirst, hsecond⟩ := hk h
    cases hf.rest_eq hfirst
    exact (hg _ _).rest_eq hsecond

/-- A reading whose result is changed. -/
theorem Ends.map {f : Cursor → Except Failure (α × Cursor)}
    {k : Cursor → Except Failure (β × Cursor)} {w : Bytes} (hf : Ends f w)
    (hk : ∀ {c b d}, k c = .ok (b, d) → ∃ a, f c = .ok (a, d)) : Ends k w where
  rest_eq h := by
    obtain ⟨a, ha⟩ := hk h
    exact hf.rest_eq ha

/-! ## Strings -/

/-- Some of the octets that are there are taken. -/
theorem Cursor.take_of_le {n : Nat} {u : Bytes} (hn : n ≤ u.length) (rest : Bytes) (o : Nat) :
    Cursor.take n ⟨u ++ rest, o⟩ = .ok (u.take n, ⟨u.drop n ++ rest, o + n⟩) := by
  have h := Cursor.take_append (u.take n) (u.drop n ++ rest) o
  rwa [List.length_take_of_le hn, ← List.append_assoc, List.take_append_drop] at h

theorem ends_take (u : Bytes) : Ends (Cursor.take u.length) u := (takes_take u).ends

section

variable {kind : Option Nat → Head} {lengthOf : Head → Option (Option Nat)} {piece : Piece σ}

/-- A segment with a length is one piece. -/
theorem segments_of_whole {g : Head} {c d d' : Cursor} {n : Nat} (hread : Head.read c = .ok (g, d))
    (hg : g ≠ .stop ∧ lengthOf g = some (some n)) {fuel nested : Nat} {s t : σ}
    (h : segments lengthOf piece (fuel + 1) (nested + 1) s c = .ok (t, d')) :
    ∃ s' r, piece c.offset n s d = .ok (s', r) ∧
      segments lengthOf piece fuel (nested + 1) s' r = .ok (t, d') := by
  rw [segments, hread] at h
  cases g with
  | stop => exact absurd rfl hg.1
  | _ =>
    simp only [hg.2] at h
    split at h
    · cases h
    · exact ⟨_, _, ‹_›, h⟩

/-- A segment without a length has segments inside. -/
theorem segments_of_nested {h : Head} {c d : Cursor} (hread : Head.read c = .ok (h, d))
    (hh : h ≠ .stop ∧ lengthOf h = some none) (fuel nested : Nat) (s : σ) :
    segments lengthOf piece (fuel + 1) (nested + 1) s c =
      segments lengthOf piece fuel (nested + 2) s d := by
  rw [segments, hread]
  cases h with
  | stop => exact absurd rfl hh.1
  | _ => simp only [hh.2]

theorem segments_of_stop {c d : Cursor} (hread : Head.read c = .ok (.stop, d)) (fuel nested : Nat)
    (s : σ) : segments lengthOf piece (fuel + 1) (nested + 1) s c =
      segments lengthOf piece fuel nested s d := by
  rw [segments, hread]

/-- Reading goes on behind segments, nested as deeply as before. -/
theorem segments_goes_on (hkind : ∀ n, kind n ≠ .stop ∧ lengthOf (kind n) = some n)
    (hpiece : ∀ (u : Bytes) start s, Ends (piece start u.length s) u) {b spelled : Bytes}
    (hb : Segments kind b spelled) {fuel nested : Nat} {s t : σ} {rest : Bytes} {o : Nat}
    {d : Cursor}
    (h : segments lengthOf piece fuel (nested + 1) s ⟨b ++ rest, o⟩ = .ok (t, d)) :
    ∃ fuel' s' o', segments lengthOf piece fuel' (nested + 1) s' ⟨rest, o'⟩ = .ok (t, d) := by
  induction hb generalizing fuel nested s rest o with
  | nil => exact ⟨fuel, s, o, h⟩
  | @whole v u b u' hv _ ih =>
    cases fuel with
    | zero => cases h
    | succ fuel =>
      rw [List.append_assoc, List.append_assoc] at h
      obtain ⟨o', hread⟩ := hv.read (u ++ (b ++ rest)) o
      obtain ⟨s', ⟨r, o''⟩, hd, h⟩ := segments_of_whole hread (hkind (some u.length)) h
      cases (hpiece u o s).rest_eq hd
      exact ih h
  | @nested v i z b u u' hv _ hz _ ihi ih =>
    cases fuel with
    | zero => cases h
    | succ fuel =>
      rw [List.append_assoc, List.append_assoc, List.append_assoc] at h
      obtain ⟨o', hread⟩ := hv.read (i ++ (z ++ (b ++ rest))) o
      rw [segments_of_nested hread (hkind none)] at h
      -- the segments inside, then the stop that ends them
      obtain ⟨fuel', s', o', h⟩ := ihi h
      cases fuel' with
      | zero => cases h
      | succ fuel' =>
        obtain ⟨o'', hread⟩ := hz.read (b ++ rest) o'
        rw [segments_of_stop hread] at h
        exact ih h

/-- Reading the content of a string ends where the content does. -/
theorem ends_pieces (hkind : ∀ n, kind n ≠ .stop ∧ lengthOf (kind n) = some n)
    (hpiece : ∀ (u : Bytes) start s, Ends (piece start u.length s) u) {n : Option Nat}
    {b spelled : Bytes} (hb : Content kind n b spelled) (start : Nat) (s : σ) :
    Ends (pieces lengthOf piece start n s) b := by
  refine ⟨fun {rest o t d} h => ?_⟩
  cases hb with
  | whole u => exact (hpiece _ start s).rest_eq h
  | @segmented b z _ hb hz =>
    rw [List.append_assoc] at h
    obtain ⟨fuel, s', o', h⟩ := segments_goes_on hkind hpiece hb h
    cases fuel with
    | zero => cases h
    | succ fuel =>
      obtain ⟨o'', hread⟩ := hz.read rest o'
      rw [segments_of_stop hread] at h
      cases fuel with
      | zero => cases h
      | succ fuel =>
        cases h
        rfl

end

theorem bytes_lengthOf (n : Option Nat) :
    Head.bytes n ≠ .stop ∧ bytesLength (.bytes n) = some n := ⟨nofun, rfl⟩

theorem text_lengthOf (n : Option Nat) :
    Head.text n ≠ .stop ∧ textLength (.text n) = some n := ⟨nofun, rfl⟩

theorem ends_readBytes {n : Option Nat} {b s : Bytes} (hb : Content .bytes n b s) (start : Nat) :
    Ends (readBytes start n) b := by
  have hpiece : ∀ (u : Bytes) start read, Ends (bytesPiece start u.length read) u := by
    intro u start read
    refine (ends_take u).map fun {c _ d} h => ?_
    unfold bytesPiece at h
    split at h <;> cases h
    exact ⟨_, ‹_›⟩
  refine (ends_pieces bytes_lengthOf hpiece hb start []).map fun {c _ d} h => ?_
  unfold readBytes at h
  split at h <;> cases h
  exact ⟨_, ‹_›⟩

/-- However the characters fall into chunks, a segment is taken as a whole. -/
theorem ends_textChunks (u : Bytes) (start : Nat) (carry : Carry) (read : List Char) :
    Ends (textChunks start carry u.length read) u := by
  induction hk : u.length using Nat.strongRecOn generalizing u carry read with
  | ind k ih =>
    subst hk
    refine ⟨fun {rest o cs d} h => ?_⟩
    rw [textChunks] at h
    split at h
    · next hu =>
      obtain rfl := List.length_eq_zero_iff.1 hu
      split at h <;> cases h
      rfl
    · next hu =>
      have hpos : 0 < min (chunkSize - carry.val.length) u.length := by
        have := carry.property
        simp only [chunkSize]
        omega
      rw [Cursor.take_of_le (Nat.min_le_right _ _)] at h
      dsimp only at h
      split at h
      · rw [← List.length_drop] at h
        exact (ih _ (by rw [List.length_drop]; omega) _ _ _ rfl).rest_eq h
      · cases h

theorem ends_readText {n : Option Nat} {b s : Bytes} (hb : Content .text n b s) (start : Nat) :
    Ends (readText start n) b := by
  have hpiece : ∀ (u : Bytes) start read, Ends (textPiece start u.length read) u :=
    fun u start read => ends_textChunks u start _ read
  refine (ends_pieces text_lengthOf hpiece hb start []).map fun {c _ d} h => ?_
  unfold readText at h
  split at h <;> cases h
  exact ⟨_, ‹_›⟩

theorem ends_bignumChunks (u : Bytes) (number : Nat × Nat) :
    Ends (bignumChunks u.length number) u := by
  induction hk : u.length using Nat.strongRecOn generalizing u number with
  | ind k ih =>
    subst hk
    refine ⟨fun {rest o x d} h => ?_⟩
    rw [bignumChunks] at h
    split at h
    · next hu =>
      obtain rfl := List.length_eq_zero_iff.1 hu
      cases h
      rfl
    · next hu =>
      rw [Cursor.take_of_le (Nat.min_le_right _ _)] at h
      dsimp only at h
      split at h
      · cases h
      · rw [← List.length_drop] at h
        exact (ih _ (by rw [List.length_drop]; omega) _ _ rfl).rest_eq h

theorem ends_readBignum {n : Option Nat} {b s : Bytes} (hb : Content .bytes n b s) (start : Nat) :
    Ends (readBignum start n) b := by
  refine (ends_pieces bytes_lengthOf (fun u _ number => ends_bignumChunks u number) hb start
    (0, 0)).map fun {c _ d} h => ?_
  unfold readBignum at h
  split at h <;> cases h
  exact ⟨_, ‹_›⟩

/-! ## Readers -/

/-- A reader that accepts an item stops behind it. -/
structure Stops (r : Reader α) : Prop where
  ends : ∀ {h b}, Follows h b → ∀ start, Ends (r start h) b

/-- A reader that accepts these octets, which begin with a head, stops behind them. -/
def Spans (r : Reader α) (w : Bytes) : Prop :=
  ∃ v h b, w = v ++ b ∧ IsHead v h ∧ h ≠ .stop ∧ ∀ start, Ends (r start h) b

variable {r : Reader α} {w : Bytes}

theorem Stops.spans (hr : Stops r) (hw : IsItem w) : Spans r w := by
  obtain ⟨v, h, b, rfl, hv, hb⟩ := hw.exists_follows
  exact ⟨v, h, b, rfl, hv, hb.ne_stop, hr.ends hb⟩

/-- After the head a reader goes on. -/
theorem run_of_isHead {v : Bytes} {h : Head} (hv : IsHead v h) (r : Reader α) (b : Bytes) (o : Nat) :
    ∃ o', r.run ⟨v ++ b, o⟩ = r o h ⟨b, o'⟩ := by
  obtain ⟨o', hread⟩ := hv.read b o
  exact ⟨o', by rw [Reader.run, hread]⟩

theorem Ends.run {v b : Bytes} {h : Head} (hv : IsHead v h) (hb : ∀ start, Ends (r start h) b) :
    Ends r.run (v ++ b) where
  rest_eq {rest o a d} hd := by
    rw [List.append_assoc] at hd
    obtain ⟨o', hrun⟩ := run_of_isHead hv r (b ++ rest) o
    exact (hb o).rest_eq (hrun ▸ hd)

theorem Spans.run (hw : Spans r w) : Ends r.run w := by
  obtain ⟨v, h, b, rfl, hv, -, hb⟩ := hw
  exact .run hv hb

theorem Stops.run (hr : Stops r) (hw : IsItem w) : Ends r.run w := (hr.spans hw).run

theorem Ends.reader_map {start : Nat} {h : Head} {b : Bytes} (hb : Ends (r start h) b) (f : α → β) :
    Ends ((r.map f) start h) b :=
  hb.map fun {c _ d} hd => by
    unfold Reader.map at hd
    split at hd <;> cases hd
    exact ⟨_, ‹_›⟩

theorem Stops.map (hr : Stops r) (f : α → β) : Stops (r.map f) where
  ends hb start := (hr.ends hb start).reader_map f

theorem Spans.map (hw : Spans r w) (f : α → β) : Spans (r.map f) w := by
  obtain ⟨v, h, b, rfl, hv, hh, hb⟩ := hw
  exact ⟨v, h, b, rfl, hv, hh, fun start => (hb start).reader_map f⟩

theorem Stops.again (hr : Stops r) : Stops r.again where
  ends hb _ := ⟨fun hd => (hr.ends hb _).rest_eq hd⟩

/-- Two items in a row are read by a reader of the first that goes on to the second. -/
theorem Stops.spans_bind {k : Reader β} {g : α → Cursor → Except Failure (β × Cursor)} {w' : Bytes}
    (hr : Stops r) (hw : IsItem w) (hg : ∀ a, Ends (g a) w')
    (hk : ∀ {start h c b d}, k start h c = .ok (b, d) →
      ∃ a c', r start h c = .ok (a, c') ∧ g a c' = .ok (b, d)) : Spans k (w ++ w') := by
  obtain ⟨v, h, b, rfl, hv, hb⟩ := hw.exists_follows
  exact ⟨v, h, b ++ w', List.append_assoc .., hv, hb.ne_stop, fun start =>
    (hr.ends hb start).bind (fun _ => hg) hk⟩

/-! ## Tags -/

theorem untagged_of_ne (r : Reader α) (start : Nat) {h : Head} (hh : ∀ t, h ≠ .tag t) (c : Cursor) :
    untagged r start h c = r start h c := by
  cases h with
  | tag t => exact absurd rfl (hh t)
  | _ => simp only [untagged]

/-- A reader that skips tags stops behind an item if it does so behind the item without its tags,
unless that is one of the items `P`. -/
theorem ends_untagged {P : Head → Bytes → Prop}
    (hr : ∀ {h b}, Follows h b → ¬ P h b → ∀ start, Ends (r start h) b) {h : Head} {b : Bytes}
    (hb : Follows h b) (hp : ¬ Tagged P h b) (start : Nat) : Ends (untagged r start h) b := by
  refine Follows.tag_induction
    (P := fun h b => ¬ Tagged P h b → ∀ start, Ends (untagged r start h) b) ?_ ?_ hb hp start
  · intro h b hb hh hp start
    refine (hr hb (fun h => hp (.plain h)) start).map fun {c a d} h => ⟨a, ?_⟩
    rwa [untagged_of_ne r start hh] at h
  · intro t v h b hv _ ih hp start
    refine (Ends.run hv (ih fun h => hp (.tag hv h))).map fun {c a d} h => ⟨a, ?_⟩
    rwa [untagged_tag] at h

theorem not_tagged_false {h : Head} {b : Bytes} : ¬ Tagged (fun _ _ => False) h b := by
  intro ht
  induction ht with
  | plain hp => exact hp
  | tag _ _ ih => exact ih

theorem Stops.untagged (hr : Stops r) : Stops (untagged r) where
  ends hb := ends_untagged (fun hb _ => hr.ends hb) hb not_tagged_false

/-! ## Numbers -/

theorem rawInteger_tag (t : Nat) {c d : Cursor} {h : Head} (hread : Head.read c = .ok (h, d)) :
    rawInteger (.tag t) c =
      if t = 2 ∨ t = 3 then
        match h with
        | .bytes n =>
          match readBignum (d.startOf h) n d with
          | .error e => .error e
          | .ok (n, d) => .ok (⟨t == 3, n⟩, d)
        | h => .error (h.refuse .bytes)
      else rawInteger h d := by
  rw [rawInteger.eq_def]
  dsimp only
  split
  · next he => cases he.symm.trans hread
  · next he =>
    cases he.symm.trans hread
    rfl

/-- An integer is a head, behind tags, or a bignum. -/
theorem ends_rawInteger {h : Head} {b : Bytes} (hb : Follows h b) : Ends (rawInteger h) b := by
  refine Follows.tag_induction (P := fun h b => Ends (rawInteger h) b) ?_ ?_ hb
  · intro h b hb hh
    refine ⟨fun {rest o a d} hd => ?_⟩
    rw [rawInteger.eq_def] at hd
    cases h with
    | unsigned n =>
      cases hb.of_isAtom (.unsigned n)
      cases hd
      rfl
    | negative n =>
      cases hb.of_isAtom (.negative n)
      cases hd
      rfl
    | tag t => exact absurd rfl (hh t)
    | _ => cases hd
  · intro t v h b hv hb ih
    refine ⟨fun {rest o a d} hd => ?_⟩
    rw [List.append_assoc] at hd
    obtain ⟨o', hread⟩ := hv.read (b ++ rest) o
    rw [rawInteger_tag t hread] at hd
    split at hd
    · cases h with
      | bytes n =>
        obtain ⟨s, hc⟩ := hb.of_bytes
        dsimp only at hd
        split at hd
        · cases hd
        · next hn =>
          cases hd
          exact (ends_readBignum hc _).rest_eq hn
      | _ => cases hd
    · exact ih.rest_eq hd

theorem stops_unsigned (width : Nat) : Stops (unsigned width) where
  ends hb start := (ends_rawInteger hb).map fun {c n d} hd => by
    unfold unsigned at hd
    split at hd
    · cases hd
    · next i d' hi =>
      split at hd
      · cases hd
      · split at hd
        · cases hd
        · split at hd <;> cases hd
          exact ⟨i, hi⟩

theorem stops_uint8 : Stops uint8 := (stops_unsigned 8).map _

theorem stops_uint32 : Stops uint32 := (stops_unsigned 32).map _

theorem stops_uint64 : Stops uint64 := (stops_unsigned 64).map _

theorem stops_boolean : Stops boolean := by
  refine Stops.untagged ⟨fun {h b} hb start => ⟨fun {rest o a d} hd => ?_⟩⟩
  cases h with
  | simple n =>
    cases hb.of_isAtom (.simple n)
    split at hd <;> cases hd <;> rfl
  | _ => cases hd

/-! ## Texts and names -/

theorem stops_text : Stops text := by
  refine Stops.untagged ⟨fun {h b} hb start => ⟨fun {rest o a d} hd => ?_⟩⟩
  cases h with
  | text n =>
    obtain ⟨s, hc⟩ := hb.of_text
    exact (ends_readText hc start).rest_eq hd
  | _ => cases hd

/-- What is read as a name is what the string spells. -/
theorem name_of_isString {start : Nat} {h : Head} {s s' b rest : Bytes} {o : Nat} {d : Cursor}
    (hs : IsString s h b) (hd : name start h ⟨b ++ rest, o⟩ = .ok (s', d)) :
    s' = s ∧ d.rest = rest := by
  cases hs with
  | bytes hc =>
    simp only [name, untagged] at hd
    cases hc with
    | segmented => cases hd
    | whole =>
      dsimp only at hd
      rw [Cursor.take_append] at hd
      split at hd <;> cases hd
      exact ⟨rfl, rfl⟩
  | text hc =>
    simp only [name, untagged] at hd
    cases hc with
    | segmented => cases hd
    | whole =>
      dsimp only at hd
      rw [Cursor.take_append] at hd
      dsimp only at hd
      split at hd
      · split at hd <;> cases hd
        exact ⟨rfl, rfl⟩
      · cases hd

theorem name_tag (start t : Nat) (c : Cursor) : name start (.tag t) c = Reader.run name c :=
  untagged_tag _ start t c

/-- An item that is read as a name is a string, behind any tags, that spells it. -/
theorem tagged_of_name {h : Head} {b : Bytes} (hb : Follows h b) :
    ∀ {start rest o s d}, name start h ⟨b ++ rest, o⟩ = .ok (s, d) →
      d.rest = rest ∧ Tagged (IsString s) h b := by
  refine Follows.tag_induction (P := fun h b => ∀ {start rest o s d},
    name start h ⟨b ++ rest, o⟩ = .ok (s, d) → d.rest = rest ∧ Tagged (IsString s) h b) ?_ ?_ hb
  · intro h b hb hh start rest o s d hd
    have of_string : ∀ {s'}, IsString s' h b → d.rest = rest ∧ Tagged (IsString s) h b := by
      intro s' hs
      obtain ⟨rfl, hrest⟩ := name_of_isString hs hd
      exact ⟨hrest, .plain hs⟩
    cases h with
    | tag t => exact absurd rfl (hh t)
    | bytes n =>
      obtain ⟨s', hc⟩ := hb.of_bytes
      exact of_string (.bytes hc)
    | text n =>
      obtain ⟨s', hc⟩ := hb.of_text
      exact of_string (.text hc)
    | _ =>
      rw [name, untagged_of_ne _ _ hh] at hd
      cases hd
  · intro t v h b hv _ ih start rest o s d hd
    rw [name_tag, List.append_assoc] at hd
    obtain ⟨o', hrun⟩ := run_of_isHead hv name (b ++ rest) o
    obtain ⟨hrest, hs⟩ := ih (hrun ▸ hd)
    exact ⟨hrest, .tag hv hs⟩

/-- What is read as a name behind tags is what the string spells. -/
theorem name_of_tagged {s : Bytes} {h : Head} {b : Bytes} (hb : Tagged (IsString s) h b) {start : Nat}
    {rest s' : Bytes} {o : Nat} {d : Cursor} (hd : name start h ⟨b ++ rest, o⟩ = .ok (s', d)) :
    s' = s := by
  induction hb generalizing start o with
  | plain hs => exact (name_of_isString hs hd).1
  | @tag t v b h hv _ ih =>
    rw [name_tag, List.append_assoc] at hd
    obtain ⟨o', hrun⟩ := run_of_isHead hv name (b ++ rest) o
    exact ih (hrun ▸ hd)

/-- **One of several names**: the reader stops behind an item, unless that is a map that announces
one entry. -/
theorem spans_variant {depth : Nat} {variants : List (String × α)} (hw : IsItem w)
    (hp : ¬ AnnouncesOneEntry w) : Spans (variant depth variants) w := by
  obtain ⟨v, h, b, rfl, hv, hb⟩ := hw.exists_follows
  refine ⟨v, h, b, rfl, hv, hb.ne_stop, ends_untagged (fun {h b} hb hp start => ?_) hb
    fun ht => hp ⟨v, h, b, rfl, hv, ht⟩⟩
  refine ⟨fun {rest o a d} hd => ?_⟩
  split at hd
  · exact absurd rfl hp
  · next n =>
    split at hd
    · cases hd
    · split at hd
      · cases hd
      · next s d' hs =>
        unfold variantNamed at hd
        split at hd <;> cases hd
        exact (tagged_of_name hb hs).1
  · cases hd

end AttestedChannel.Cbor
