import AttestedChannel.Proofs.Cbor.Duplicates
import AttestedChannel.Proofs.Cbor.Containers

/-!
# Fields that come twice in a map of any items

A map in which two keys spell the name of the same field is refused (`refuses_repeated`), whatever
the other entries are: fields or not, in whatever form they are written. For reading an entry ends
where the entry does (`spans_readEntry`), so every key is met as a key; an entry whose key spells the
name of a field sets that field, and no other entry unsets it (`isSet_of_steps`).

What is needed of the values is that their readers stop behind them. Of all but a few readers that is
known, and those few have to be asked about the value at hand.
-/

namespace AttestedChannel.Cbor

variable {α δ : Type}

/-! ## Entries -/

/-- Where an entry is not known, reading stops behind its value. -/
def StopsUnknown (unknown : UnknownEntry) : Prop :=
  ∀ {w}, IsItem w → ∀ {depth s rest o d}, unknown depth s ⟨w ++ rest, o⟩ = .ok d → d.rest = rest

theorem stopsUnknown_skipUnknown : StopsUnknown skipUnknown := by
  intro w hw depth s rest o d hd
  unfold skipUnknown at hd
  split at hd <;> cases hd
  exact ((stops_skip depth).run hw).rest_eq ‹_›

theorem stopsUnknown_refuseUnknown (known : List String) : StopsUnknown (refuseUnknown known) := by
  intro w _ depth s rest o d hd
  cases hd

section

variable {fields : List (Field δ)} {unknown : UnknownEntry} {depth : Nat} {draft draft' : δ}

/-- An entry that is read has a name, and is that of a field which was not set before, or of none. -/
theorem of_readEntry {start : Nat} {h : Head} {c d : Cursor}
    (hd : readEntry fields unknown depth draft start h c = .ok (draft', d)) :
    ∃ s c', name start h c = .ok (s, c') ∧
      ((∃ f, fields.find? (fun f => Text.Utf8.encode f.name == s) = some f ∧
          f.isSet draft = false ∧ (f.read depth draft).run c' = .ok (draft', d)) ∨
        (fields.find? (fun f => Text.Utf8.encode f.name == s) = none ∧ draft' = draft ∧
          unknown depth s c' = .ok d)) := by
  unfold readEntry at hd
  split at hd
  · cases hd
  · next s c' hname =>
    refine ⟨s, c', hname, ?_⟩
    split at hd
    · next f hf =>
      split at hd
      · cases hd
      · next hset => exact .inl ⟨f, hf, Bool.not_eq_true _ ▸ hset, hd⟩
    · next hnone =>
      split at hd <;> cases hd
      exact .inr ⟨hnone, rfl, ‹_›⟩

/-- **Reading an entry ends where the entry does**, if the reader of the field whose name its key
spells stops behind its value. -/
theorem spans_readEntry (hu : StopsUnknown unknown) {e : Bytes × Bytes} (hk : IsItem e.1)
    (hv : IsItem e.2) (hread : ∀ f ∈ fields, Spells (Text.Utf8.encode f.name) e.1 →
      Ends (f.read depth draft).run e.2) :
    Spans (readEntry fields unknown depth draft) (e.1 ++ e.2) := by
  obtain ⟨k, w⟩ := e
  obtain ⟨v, h, b, rfl, hhead, hb⟩ := hk.exists_follows
  refine ⟨v, h, b ++ w, List.append_assoc .., hhead, hb.ne_stop, fun start => ⟨?_⟩⟩
  intro rest o draft' d hd
  rw [List.append_assoc] at hd
  obtain ⟨s, ⟨r, o'⟩, hname, hd⟩ := of_readEntry hd
  obtain ⟨hrest, hs⟩ := tagged_of_name hb hname
  cases hrest
  rcases hd with ⟨f, hf, -, hd⟩ | ⟨-, -, hd⟩
  · have hname : Text.Utf8.encode f.name = s := by
      have h := List.find?_some hf
      exact eq_of_beq h
    rw [← hname] at hs
    exact (hread f (List.mem_of_find?_eq_some hf) ⟨v, h, b, rfl, hhead, hs⟩).rest_eq hd
  · exact hu hv hd

/-- **A record ends where its map does**, if the readers of its fields stop behind their values. -/
theorem stops_record {empty : δ} {finish : δ → Except Failure α} (hu : StopsUnknown unknown)
    (hf : ∀ f ∈ fields, ∀ depth draft, Stops (f.read depth draft)) :
    Stops (record fields unknown empty finish depth) := by
  refine Stops.untagged ⟨fun {h b} hb start => ⟨fun {rest o a d} hd => ?_⟩⟩
  cases h with
  | map n =>
    obtain ⟨es, hes, hc⟩ := hb.of_map
    cases depth with
    | zero => cases hd
    | succ depth =>
      dsimp only at hd
      split at hd
      · cases hd
      · next draft d' hread =>
        split at hd <;> cases hd
        refine (ends_readContainer (fun w hw draft => ?_) hc empty).rest_eq hread
        obtain ⟨e, he, rfl⟩ := List.mem_map.1 hw
        obtain ⟨hk, hv⟩ := hes e he
        exact spans_readEntry hu hk hv fun f hmem _ => (hf f hmem _ _).run hv
  | _ => cases hd

/-! ## Fields that are met -/

/-- What is made of an entry is made by reading its key first. -/
theorem Makes.exists_name {k w : Bytes} (hk : IsItem k)
    (hd : Makes (readEntry fields unknown depth draft) (k ++ w) draft') :
    ∃ s, (∀ s', Spells s' k → s = s') ∧
      ((∃ f c d, fields.find? (fun f => Text.Utf8.encode f.name == s) = some f ∧
          f.isSet draft = false ∧ (f.read depth draft).run c = .ok (draft', d)) ∨
        (fields.find? (fun f => Text.Utf8.encode f.name == s) = none ∧ draft' = draft)) := by
  obtain ⟨v, h, b, rfl, hv, hb⟩ := hk.exists_follows
  obtain ⟨v', h', b', e, hv', start, rest, o, d, hd⟩ := hd
  rw [List.append_assoc] at e
  obtain ⟨rfl, rfl, rfl⟩ := hv.unique hv' e
  rw [List.append_assoc] at hd
  obtain ⟨s, c, hname, hd⟩ := of_readEntry hd
  refine ⟨s, fun s' hs => name_of_tagged (hs.tagged hv) hname, ?_⟩
  rcases hd with ⟨f, hf, hset, hd⟩ | ⟨hnone, hdraft, -⟩
  · exact .inl ⟨f, c, d, hf, hset, hd⟩
  · exact .inr ⟨hnone, hdraft⟩

/-- Reading a field sets it, also from its head on. -/
theorem Separate.run (hs : Separate fields) {f : Field δ} (hf : f ∈ fields) {c d : Cursor}
    (hd : (f.read depth draft).run c = .ok (draft', d)) {g : Field δ} (hg : g ∈ fields) :
    g.isSet draft' = true ↔ g.name = f.name ∨ g.isSet draft = true := by
  unfold Reader.run at hd
  split at hd
  · cases hd
  · exact hs f hf hd g hg

/-- **A field that is met is set from then on.** -/
theorem isSet_of_steps (hs : Separate fields) {f : Field δ}
    (hf : fields.find? (fun g => Text.Utf8.encode g.name == Text.Utf8.encode f.name) = some f)
    {es : List (Bytes × Bytes)} (hes : ∀ e ∈ es, IsItem e.1)
    (hd : Steps (readEntry fields unknown depth) draft (entryOctets es) draft')
    (hmet : f.isSet draft = true ∨ ∃ e ∈ es, Spells (Text.Utf8.encode f.name) e.1) :
    f.isSet draft' = true := by
  have hmem := List.mem_of_find?_eq_some hf
  induction es generalizing draft with
  | nil =>
    cases hd
    simpa using hmet
  | cons e es ih =>
    obtain ⟨hk, hes⟩ := List.forall_mem_cons.1 hes
    cases hd with
    | @cons _ draft₁ _ _ _ hstep hd =>
      refine ih hes hd ?_
      obtain ⟨s, hname, hread⟩ := hstep.exists_name hk
      rcases hmet with hset | ⟨e', he', hspells⟩
      · -- what is set stays set
        refine .inl ?_
        rcases hread with ⟨g, c, d, hg, -, hd⟩ | ⟨-, rfl⟩
        · exact (hs.run (List.mem_of_find?_eq_some hg) hd hmem).2 (.inr hset)
        · exact hset
      · rcases List.mem_cons.1 he' with rfl | he'
        · -- the key at hand spells the name
          rw [hname _ hspells, hf] at hread
          rcases hread with ⟨g, c, d, hg, -, hd⟩ | ⟨hnone, -⟩
          · cases hg
            exact .inl ((hs.run hmem hd hmem).2 (.inl rfl))
          · cases hnone
        · exact .inr ⟨e', he', hspells⟩

/-- What is read behind tags is read with and without them. -/
theorem run_untagged_of_behindTags {P : Head → Bytes → Prop} {r : Reader α} {w : Bytes}
    (hw : BehindTags P w) {rest : Bytes} {o : Nat} {a : α} {d : Cursor}
    (hd : Reader.run (untagged r) ⟨w ++ rest, o⟩ = .ok (a, d)) :
    ∃ h b, P h b ∧ ∃ start o', untagged r start h ⟨b ++ rest, o'⟩ = .ok (a, d) := by
  obtain ⟨v, h, b, rfl, hv, hb⟩ := hw
  rw [List.append_assoc] at hd
  obtain ⟨o', hrun⟩ := run_of_isHead hv (untagged r) (b ++ rest) o
  rw [hrun] at hd
  clear hrun hv
  induction hb generalizing o o' with
  | plain hp => exact ⟨_, _, hp, _, _, hd⟩
  | @tag t v b h hv _ ih =>
    rw [untagged_tag, List.append_assoc] at hd
    obtain ⟨o'', hrun⟩ := run_of_isHead hv (untagged r) (b ++ rest) o'
    rw [hrun] at hd
    exact ih _ hd

/-- The body of a map goes on with a key behind the entries before it. -/
theorem Closes.exists_key {before later : List (Bytes × Bytes)} {e : Bytes × Bytes}
    {n : Option Nat} {b : Bytes}
    (hb : Closes (before ++ e :: later).length (entryOctets (before ++ e :: later)).flatten n b) :
    (∃ more, b = (entryOctets before).flatten ++ (e.1 ++ more)) ∧
      ∀ m, n = some m → (entryOctets before).length < m := by
  have hflat : (entryOctets (before ++ e :: later)).flatten =
      (entryOctets before).flatten ++ (e.1 ++ (e.2 ++ (entryOctets later).flatten)) := by
    simp [entryOctets]
  rw [hflat] at hb
  cases hb with
  | counted =>
    refine ⟨⟨_, rfl⟩, fun m hm => ?_⟩
    cases hm
    simp [entryOctets]
  | @stopped z hz =>
    refine ⟨⟨e.2 ++ (entryOctets later).flatten ++ z, ?_⟩, fun m hm => ?_⟩
    · simp only [List.append_assoc]
    · cases hm

/-- A map in which a key spells the name of a field that a key before it has spelled is not read. -/
theorem readContainer_ne_ok (hs : Separate fields) (hu : StopsUnknown unknown)
    {before later : List (Bytes × Bytes)} {e : Bytes × Bytes} {n : Option Nat} {b : Bytes}
    {f : Field δ}
    (hf : fields.find? (fun g => Text.Utf8.encode g.name == Text.Utf8.encode f.name) = some f)
    (hb : Closes (before ++ e :: later).length (entryOctets (before ++ e :: later)).flatten n b)
    (hitems : ∀ g ∈ before, IsItem g.1 ∧ IsItem g.2)
    (hreads : ∀ g ∈ before, ∀ f ∈ fields, Spells (Text.Utf8.encode f.name) g.1 →
      ∀ draft, Ends (f.read depth draft).run g.2)
    (hk : IsItem e.1) (hfirst : ∃ g ∈ before, Spells (Text.Utf8.encode f.name) g.1)
    (hsecond : Spells (Text.Utf8.encode f.name) e.1) (x : Bytes) (o : Nat) (d : Cursor) :
    readContainer (readEntry fields unknown depth) n draft ⟨b ++ x, o⟩ ≠ .ok (draft', d) := by
  intro hread
  obtain ⟨⟨more, rfl⟩, hn⟩ := hb.exists_key
  obtain ⟨k, w⟩ := e
  obtain ⟨v, h, b, rfl, hv, hb⟩ := hk.exists_follows
  rw [List.append_assoc, List.append_assoc, List.append_assoc] at hread
  have hspans : ∀ u ∈ entryOctets before, ∀ draft,
      Spans (readEntry fields unknown depth draft) u := by
    intro u hu' draft
    obtain ⟨g, hg, rfl⟩ := List.mem_map.1 hu'
    obtain ⟨hkey, hvalue⟩ := hitems g hg
    exact spans_readEntry hu hkey hvalue fun f hf hs => hreads g hg f hf hs draft
  obtain ⟨draft₁, hsteps, start, o', t, d', hentry⟩ :=
    steps_of_readContainer hspans hv hb.ne_stop hn hread
  -- the field is set by now, and the key that is read next spells its name again
  have hset : f.isSet draft₁ = true :=
    isSet_of_steps hs hf (fun g hg => (hitems g hg).1) hsteps (.inr hfirst)
  obtain ⟨s, c, hname, hentry⟩ := of_readEntry hentry
  rw [name_of_tagged (hsecond.tagged hv) hname, hf] at hentry
  rcases hentry with ⟨g, hg, hnew, -⟩ | ⟨hnone, -⟩
  · cases hg
    cases hset.symm.trans hnew
  · cases hnone

/-- **A second occurrence of a field is refused**, whatever items come before it and whatever comes
after its key, if the readers of the fields before it stop behind their values. -/
theorem refuses_repeated {empty : δ} {finish : δ → Except Failure α} (hs : Separate fields)
    (hu : StopsUnknown unknown) {before later : List (Bytes × Bytes)} {e : Bytes × Bytes}
    {b : Bytes} {f : Field δ}
    (hf : fields.find? (fun g => Text.Utf8.encode g.name == Text.Utf8.encode f.name) = some f)
    (hb : IsMapOf (before ++ e :: later) b) (hitems : ∀ g ∈ before, IsItem g.1 ∧ IsItem g.2)
    (hreads : ∀ g ∈ before, ∀ f ∈ fields, Spells (Text.Utf8.encode f.name) g.1 →
      ∀ depth draft, Ends (f.read depth draft).run g.2)
    (hk : IsItem e.1) (hfirst : ∃ g ∈ before, Spells (Text.Utf8.encode f.name) g.1)
    (hsecond : Spells (Text.Utf8.encode f.name) e.1) (x : Bytes) :
    ∃ failure, decode (record fields unknown empty finish depth) (b ++ x) = .error failure := by
  unfold decode
  split
  · exact ⟨_, rfl⟩
  · next a d hd =>
    exfalso
    obtain ⟨h, b, ⟨hc⟩, start, o, hd⟩ := run_untagged_of_behindTags hb hd
    simp only [untagged] at hd
    cases depth with
    | zero => cases hd
    | succ depth =>
      dsimp only at hd
      split at hd
      · cases hd
      · next draft d' hread =>
        exact readContainer_ne_ok hs hu hf hc hitems (fun g hg f hf hs => hreads g hg f hf hs depth)
          hk hfirst hsecond x o d' hread

end

end AttestedChannel.Cbor
