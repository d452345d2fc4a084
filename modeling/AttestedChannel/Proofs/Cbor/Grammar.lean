import AttestedChannel.Proofs.Cbor.Items

/-!
# Items by their octets

What an item is can be said without a reader. An item is a head and a body; the head says what the
body has to be, and the items in the body are items again (`IsItem`). Nothing is said of what an
item is good for: texts need not be UTF-8, names may come twice, and nesting has no limit. So this
is the widest sense in which octets can be one item, and a reader takes some of them only.

Three kinds of items matter by themselves, each behind any tags (`BehindTags`): strings, by what they
spell (`Spells`); maps, by their entries (`IsMapOf`); and maps that announce one entry
(`AnnouncesOneEntry`).

Octets begin with one head at most (`IsHead.unique`), so an item can be taken apart in one way only.
What the library writes are items (`isItem_text`, `isMapOf_record`).
-/

namespace AttestedChannel.Cbor

/-! ## Heads -/

/-- The octets are this head and no more. -/
def IsHead (v : Bytes) (h : Head) : Prop := Head.read (.ofBytes v) = .ok (h, ⟨[], v.length⟩)

/-- Octets that are there are taken from what they are the front of. -/
theorem Cursor.take_of_take {n o : Nat} {r b : Bytes} {d : Cursor}
    (h : Cursor.take n ⟨r, o⟩ = .ok (b, d)) (hd : d.rest = []) (rest : Bytes) (o' : Nat) :
    Cursor.take n ⟨r ++ rest, o'⟩ = .ok (b, ⟨rest, o' + n⟩) := by
  unfold Cursor.take at h
  split at h
  · next p q hp =>
    obtain ⟨hl, hr⟩ := Bytes.take?_eq_some.1 hp
    cases h
    cases hd
    rw [List.append_nil] at hr
    cases hr
    rw [← hl, Cursor.take_append]
  · cases h

/-- **A head is read with whatever follows it.** -/
theorem IsHead.read {v : Bytes} {h : Head} (hv : IsHead v h) (rest : Bytes) (o : Nat) :
    ∃ o', Head.read ⟨v ++ rest, o⟩ = .ok (h, ⟨rest, o'⟩) := by
  unfold IsHead at hv
  cases v with
  | nil => cases hv
  | cons x r =>
    simp only [Head.read, Cursor.ofBytes] at hv
    simp only [Head.read, List.cons_append]
    split at hv
    · next hshort =>
      rw [if_pos hshort]
      cases hv
      exact ⟨_, rfl⟩
    · next hshort =>
      rw [if_neg hshort]
      split at hv
      · next hwide =>
        rw [if_pos hwide]
        split at hv
        · cases hv
        · next b d hb =>
          injection hv with hv
          injection hv with hh hd
          subst hh
          rw [Cursor.take_of_take hb (by rw [hd]) rest (o + 1)]
          exact ⟨_, rfl⟩
      · next hwide =>
        rw [if_neg hwide]
        split at hv
        · next hstop =>
          rw [if_pos hstop]
          split at hv
          · cases hv
            exact ⟨_, rfl⟩
          · cases hv
        · cases hv

/-- Octets begin with one head at most. -/
theorem IsHead.unique {v v' b b' : Bytes} {h h' : Head} (hv : IsHead v h) (hv' : IsHead v' h')
    (e : v ++ b = v' ++ b') : v = v' ∧ h = h' ∧ b = b' := by
  obtain ⟨o, hread⟩ := hv.read b 0
  obtain ⟨o', hread'⟩ := hv'.read b' 0
  rw [e] at hread
  cases hread.symm.trans hread'
  exact ⟨List.append_cancel_right e, rfl, rfl⟩

/-! ## Bodies -/

/-- Segments of strings of this kind, one after the other, and what they spell together. Segments
may nest. -/
inductive Segments (kind : Option Nat → Head) : (octets spelled : Bytes) → Prop
  | nil : Segments kind [] []
  | whole {v s b s' : Bytes} (hv : IsHead v (kind (some s.length))) (hb : Segments kind b s') :
    Segments kind (v ++ (s ++ b)) (s ++ s')
  | nested {v i z b s s' : Bytes} (hv : IsHead v (kind none)) (hi : Segments kind i s)
      (hz : IsHead z .stop) (hb : Segments kind b s') :
    Segments kind (v ++ (i ++ (z ++ b))) (s ++ s')

/-- The content of a string whose head announces this length: the octets, or segments up to a stop.
-/
inductive Content (kind : Option Nat → Head) : Option Nat → (octets spelled : Bytes) → Prop
  | whole (s : Bytes) : Content kind (some s.length) s s
  | segmented {b z s : Bytes} (hb : Segments kind b s) (hz : IsHead z .stop) :
    Content kind none (b ++ z) s

/-- A string that spells `s`. -/
inductive IsString (s : Bytes) : Head → Bytes → Prop
  | bytes {n : Option Nat} {b : Bytes} (hc : Content .bytes n b s) : IsString s (.bytes n) b
  | text {n : Option Nat} {b : Bytes} (hc : Content .text n b s) : IsString s (.text n) b

/-- The body of a container that announces this length: as many things as it announces, or things
up to a stop. -/
inductive Closes (count : Nat) (things : Bytes) : Option Nat → Bytes → Prop
  | counted : Closes count things (some count) things
  | stopped {z : Bytes} (hz : IsHead z .stop) : Closes count things none (things ++ z)

/-- The octets of entries, keys and values. -/
def entryOctets (es : List (Bytes × Bytes)) : List Bytes := es.map fun e => e.1 ++ e.2

@[simp] theorem length_entryOctets (es : List (Bytes × Bytes)) :
    (entryOctets es).length = es.length := List.length_map _

/-- A map with these entries. -/
inductive IsMap (es : List (Bytes × Bytes)) : Head → Bytes → Prop
  | mk {n : Option Nat} {b : Bytes} (hb : Closes es.length (entryOctets es).flatten n b) :
    IsMap es (.map n) b

/-- A head that is a whole item. -/
inductive Head.IsAtom : Head → Prop
  | unsigned (n : Nat) : IsAtom (.unsigned n)
  | negative (n : Nat) : IsAtom (.negative n)
  | float (x : Binary64) : IsAtom (.float x)
  | simple (n : Nat) : IsAtom (.simple n)

/-- What may follow a head, and what has to be an item in it. -/
inductive Body : Head → List Bytes → Bytes → Prop
  | atom {h : Head} (ha : h.IsAtom) : Body h [] []
  | string {h : Head} {s b : Bytes} (hs : IsString s h b) : Body h [] b
  | array {n : Option Nat} {ws : List Bytes} {b : Bytes} (hb : Closes ws.length ws.flatten n b) :
    Body (.array n) ws b
  | map {h : Head} {es : List (Bytes × Bytes)} {b : Bytes} (hm : IsMap es h b) :
    Body h (es.flatMap fun e => [e.1, e.2]) b
  | tag (t : Nat) (w : Bytes) : Body (.tag t) [w] w

/-- **The octets are one item.** -/
inductive IsItem : Bytes → Prop
  | mk {v b : Bytes} {h : Head} {ws : List Bytes} (hv : IsHead v h) (hws : ∀ w ∈ ws, IsItem w)
      (hb : Body h ws b) : IsItem (v ++ b)

/-- The octets that follow this head make an item of it. -/
def Follows (h : Head) (b : Bytes) : Prop := ∃ ws, (∀ w ∈ ws, IsItem w) ∧ Body h ws b

theorem IsItem.exists_follows {w : Bytes} (hw : IsItem w) :
    ∃ v h b, w = v ++ b ∧ IsHead v h ∧ Follows h b := by
  obtain ⟨hv, hws, hb⟩ := hw
  exact ⟨_, _, _, rfl, hv, _, hws, hb⟩

/-- No item begins with a stop. -/
theorem Follows.ne_stop {h : Head} {b : Bytes} (hb : Follows h b) : h ≠ .stop := by
  rintro rfl
  obtain ⟨ws, -, hb⟩ := hb
  cases hb with
  | atom ha => cases ha
  | string hs => cases hs
  | map hm => cases hm

/-! ### What follows which head -/

section

variable {n : Option Nat} {b : Bytes}

theorem Follows.of_isAtom {h : Head} (ha : h.IsAtom) (hb : Follows h b) : b = [] := by
  obtain ⟨ws, -, hb⟩ := hb
  cases hb with
  | atom => rfl
  | string hs => cases hs <;> cases ha
  | map hm => cases hm; cases ha
  | array => cases ha
  | tag => cases ha

theorem Follows.of_bytes (hb : Follows (.bytes n) b) : ∃ s, Content .bytes n b s := by
  obtain ⟨ws, -, hb⟩ := hb
  cases hb with
  | atom ha => cases ha
  | map hm => cases hm
  | string hs =>
    cases hs with
    | bytes hc => exact ⟨_, hc⟩

theorem Follows.of_text (hb : Follows (.text n) b) : ∃ s, Content .text n b s := by
  obtain ⟨ws, -, hb⟩ := hb
  cases hb with
  | atom ha => cases ha
  | map hm => cases hm
  | string hs =>
    cases hs with
    | text hc => exact ⟨_, hc⟩

theorem Follows.of_array (hb : Follows (.array n) b) :
    ∃ ws : List Bytes, (∀ w ∈ ws, IsItem w) ∧ Closes ws.length ws.flatten n b := by
  obtain ⟨ws, hws, hb⟩ := hb
  cases hb with
  | atom ha => cases ha
  | map hm => cases hm
  | string hs => cases hs
  | array hb => exact ⟨ws, hws, hb⟩

theorem Follows.of_map (hb : Follows (.map n) b) :
    ∃ es : List (Bytes × Bytes), (∀ e ∈ es, IsItem e.1 ∧ IsItem e.2) ∧
      Closes (entryOctets es).length (entryOctets es).flatten n b := by
  obtain ⟨ws, hws, hb⟩ := hb
  cases hb with
  | atom ha => cases ha
  | string hs => cases hs
  | @map _ es _ hm =>
    cases hm with
    | mk hb =>
      rw [← length_entryOctets] at hb
      refine ⟨es, fun e he => ⟨hws _ ?_, hws _ ?_⟩, hb⟩
      · exact List.mem_flatMap.2 ⟨e, he, by simp⟩
      · exact List.mem_flatMap.2 ⟨e, he, by simp⟩

theorem Follows.of_tag {t : Nat} (hb : Follows (.tag t) b) :
    ∃ v h b', b = v ++ b' ∧ IsHead v h ∧ Follows h b' := by
  obtain ⟨ws, hws, hb⟩ := hb
  cases hb with
  | atom ha => cases ha
  | string hs => cases hs
  | map hm => cases hm
  | tag => exact (hws _ (List.mem_singleton_self _)).exists_follows

end

/-- What is said of an item may be shown behind its tags first. -/
theorem Follows.tag_induction {P : Head → Bytes → Prop}
    (plain : ∀ {h b}, Follows h b → (∀ t, h ≠ .tag t) → P h b)
    (tag : ∀ {t v h b}, IsHead v h → Follows h b → P h b → P (.tag t) (v ++ b))
    {h : Head} {b : Bytes} (hb : Follows h b) : P h b := by
  -- one step, if every item in the body has a head and a body with the property
  have step : ∀ {h ws b}, (∀ w ∈ ws, IsItem w) → Body h ws b →
      (∀ w ∈ ws, ∃ v h b, w = v ++ b ∧ IsHead v h ∧ Follows h b ∧ P h b) → P h b := by
    intro h ws b hws hb ih
    cases hb with
    | tag t =>
      obtain ⟨v, g, b, rfl, hv, hb, hp⟩ := ih _ (List.mem_singleton_self _)
      exact tag hv hb hp
    | atom ha => exact plain ⟨_, hws, .atom ha⟩ fun t => by rintro rfl; cases ha
    | string hs => exact plain ⟨_, hws, .string hs⟩ fun t => by rintro rfl; cases hs
    | array hb => exact plain ⟨_, hws, .array hb⟩ nofun
    | map hm => exact plain ⟨_, hws, .map hm⟩ fun t => by rintro rfl; cases hm
  have item : ∀ {w}, IsItem w → ∃ v h b, w = v ++ b ∧ IsHead v h ∧ Follows h b ∧ P h b := by
    intro w hw
    induction hw with
    | mk hv hws hb ih => exact ⟨_, _, _, rfl, hv, ⟨_, hws, hb⟩, step hws hb ih⟩
  obtain ⟨ws, hws, hb⟩ := hb
  exact step hws hb fun w hw => item (hws w hw)

/-! ## Items behind tags -/

/-- A head and what follows it have the property, or begin with a tag and have it behind that. -/
inductive Tagged (P : Head → Bytes → Prop) : Head → Bytes → Prop
  | plain {h : Head} {b : Bytes} (hp : P h b) : Tagged P h b
  | tag {t : Nat} {v b : Bytes} {h : Head} (hv : IsHead v h) (hb : Tagged P h b) :
    Tagged P (.tag t) (v ++ b)

/-- The octets are a head and what follows it, which have the property behind any tags. -/
def BehindTags (P : Head → Bytes → Prop) (w : Bytes) : Prop :=
  ∃ v h b, w = v ++ b ∧ IsHead v h ∧ Tagged P h b

/-- What is behind the tags of octets is behind those of their head. -/
theorem BehindTags.tagged {P : Head → Bytes → Prop} {v b : Bytes} {h : Head}
    (hp : BehindTags P (v ++ b)) (hv : IsHead v h) : Tagged P h b := by
  obtain ⟨v', h', b', e, hv', hp⟩ := hp
  obtain ⟨rfl, rfl, rfl⟩ := hv.unique hv' e
  exact hp

/-- The octets are a string, in one piece or in segments, that spells `s`. -/
def Spells (s : Bytes) : Bytes → Prop := BehindTags (IsString s)

/-- The octets are a map with these entries. -/
def IsMapOf (es : List (Bytes × Bytes)) : Bytes → Prop := BehindTags (IsMap es)

/-- The octets begin a map of which the head says that it has one entry. -/
def AnnouncesOneEntry : Bytes → Prop := BehindTags fun h _ => h = .map (some 1)

/-! ## What is written -/

/-- A head that is read exactly is one. -/
theorem isHead_of_takes {v : Bytes} {h : Head} (hv : Takes Head.read v h) : IsHead v h := by
  have hread := hv.whole [] 0
  rwa [List.append_nil, Nat.zero_add] at hread

theorem isHead_text {s : String} (hs : (Text.Utf8.encode s).length < headRange) :
    IsHead (Head.write 3 (Text.Utf8.encode s).length)
      (.text (some (Text.Utf8.encode s).length)) :=
  isHead_of_takes (Head.takes_read_write (by decide) hs)

theorem spells_text {s : String} (hs : (Text.Utf8.encode s).length < headRange) :
    Spells (Text.Utf8.encode s) (Write.text s) :=
  ⟨_, _, _, rfl, isHead_text hs, .plain (.text (.whole _))⟩

theorem isItem_text {s : String} (hs : (Text.Utf8.encode s).length < headRange) :
    IsItem (Write.text s) :=
  .mk (isHead_text hs) (fun _ h => absurd h List.not_mem_nil) (.string (.text (.whole _)))

theorem not_announcesOneEntry_text {s : String} (hs : (Text.Utf8.encode s).length < headRange) :
    ¬ AnnouncesOneEntry (Write.text s) := by
  intro hp
  cases hp.tagged (isHead_text hs) with
  | plain hp => cases hp

/-- A record is a map with the names of its entries as keys. -/
theorem isMapOf_record {entries : List (String × Bytes)} (hn : entries.length < headRange) :
    IsMapOf (entries.map fun e => (Write.text e.1, e.2)) (Write.record entries) := by
  refine ⟨Head.write 5 entries.length, .map (some entries.length), _, rfl,
    isHead_of_takes (Head.takes_read_write (by decide) hn), .plain ⟨?_⟩⟩
  have hflat : entries.flatMap (fun e => Write.text e.1 ++ e.2) =
      (entryOctets (entries.map fun e => (Write.text e.1, e.2))).flatten := by
    rw [entryOctets, List.map_map, List.flatMap_def]
    rfl
  have hlength : entries.length = (entries.map fun e => (Write.text e.1, e.2)).length := by simp
  rw [hflat, hlength]
  exact .counted

end AttestedChannel.Cbor
