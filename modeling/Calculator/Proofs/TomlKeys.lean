/-
**No key twice.**

A document adds to tables that earlier lines have begun, and the same table may be reached through a
header, through dots, or as the last element of a list of tables.  Wherever a member goes, its key
must be new there, and a change within a table neither moves nor repeats the keys above it.  So no
table of a document has two members of one key: not the document as a whole, and none of the tables
that stand in it, the ones in braces included.

What is looked up under a key is then the one member that the document gives, and the order in which
the members stand makes no difference to the settings.

Main definitions

* `Calculator.Toml.Value.KeysApart`, `Calculator.Toml.Table.KeysApart` — the tables of a value, or a
  table and those within it, have every key once.

Main results

* `Calculator.Toml.Table.KeysApart.within` — a change deep within a table keeps the keys apart if it
  does so where it happens;
* `Calculator.Toml.readsApart` — so do the readers of values;
* `Calculator.Toml.keysApart_of_parse?` — **no table of a document has two members of one key**;
* `Calculator.Settings.ofTable?_eq_of_perm` — **the order of the settings makes no difference**.
-/

import Calculator.Settings.File
import Mathlib.Data.List.Infix
import Mathlib.Data.List.Nodup

set_option autoImplicit false

namespace Calculator

namespace Toml

/-! ### Tables -/

/-- The tables of a value have every key once. -/
inductive Value.KeysApart : Value → Prop where
  | string (text : List Char) : KeysApart (.string text)
  | integer (n : Int) : KeysApart (.integer n)
  | float (v : Float) : KeysApart (.float v)
  | boolean (b : Bool) : KeysApart (.boolean b)
  | dateTime (text : List Char) : KeysApart (.dateTime text)
  | list {inBrackets : Bool} {items : List Value} (hitems : ∀ v ∈ items, KeysApart v) :
      KeysApart (.list inBrackets items)
  | table {origin : Origin} {members : Members} (hkeys : (members.map Prod.fst).Nodup)
      (hvalues : ∀ m ∈ members, KeysApart m.2) : KeysApart (.table origin members)

/-- A table and those within it have every key once. -/
structure Table.KeysApart (t : Table) : Prop where
  keys : (t.members.map Prod.fst).Nodup
  values : ∀ m ∈ t.members, m.2.KeysApart

variable {t t' : Table} {k : Key} {v : Value} {path : List Key} {byDots : Bool}
  {change : Table → Option Table}

theorem Value.KeysApart.ofTable {origin : Origin} {members : Members}
    (h : (Value.table origin members).KeysApart) : Table.KeysApart ⟨origin, members⟩ := by
  cases h with
  | table hkeys hvalues => exact ⟨hkeys, hvalues⟩

theorem Value.KeysApart.items {inBrackets : Bool} {items : List Value}
    (h : (Value.list inBrackets items).KeysApart) : ∀ v ∈ items, v.KeysApart := by
  cases h with
  | list hitems => exact hitems

/-- What is looked up is among the members. -/
theorem mem_of_get? (h : t.get? k = some v) : (k, v) ∈ t.members := by
  obtain ⟨before, after, hmembers, -⟩ := List.lookup_eq_some_iff.1 h
  simp [hmembers]

theorem notMem_of_get?_eq_none (h : t.get? k = none) : k ∉ t.members.map Prod.fst := by
  intro hmem
  obtain ⟨m, hm, rfl⟩ := List.mem_map.1 hmem
  simpa using List.lookup_eq_none_iff.1 h m hm

namespace Table.KeysApart

theorem empty (origin : Origin) : Table.KeysApart ⟨origin, []⟩ := ⟨List.nodup_nil, by simp⟩

theorem toValue (h : t.KeysApart) : t.toValue.KeysApart := .table h.keys h.values

theorem of_get? (h : t.KeysApart) (hk : t.get? k = some v) : v.KeysApart :=
  h.values _ (mem_of_get? hk)

/-- What is looked up under a key is the member that has it. -/
theorem get?_eq_some_iff (h : t.KeysApart) : t.get? k = some v ↔ (k, v) ∈ t.members := by
  constructor
  · exact mem_of_get?
  · intro hmem
    cases hget : t.get? k with
    | none => exact absurd (List.mem_map_of_mem hmem) (notMem_of_get?_eq_none hget)
    | some w =>
        have hsame := List.inj_on_of_nodup_map h.keys (mem_of_get? hget) hmem
        exact congrArg (some ·.2) (hsame rfl)

/-- The keys stay apart in any order. -/
theorem of_perm (h : t.KeysApart) (hperm : t'.members.Perm t.members) : t'.KeysApart where
  keys := (hperm.map Prod.fst).nodup_iff.2 h.keys
  values := fun m hm => h.values m (hperm.mem_iff.1 hm)

/-- A new key is one more. -/
theorem append (h : t.KeysApart) (hk : t.get? k = none) (hv : v.KeysApart) :
    (t.append k v).KeysApart where
  keys := by
    have hnew := notMem_of_get?_eq_none hk
    simp only [Table.append, List.map_append, List.map_cons, List.map_nil]
    refine List.nodup_append.2 ⟨h.keys, List.pairwise_singleton _ k, ?_⟩
    rintro a ha b hb rfl
    exact hnew (List.mem_singleton.1 hb ▸ ha)
  values := List.forall_mem_append.2 ⟨h.values, by simpa using hv⟩

/-- Another value under a key leaves the keys as they are. -/
theorem replace (h : t.KeysApart) (hv : v.KeysApart) : (t.replace k v).KeysApart where
  keys := by
    have hsame : (t.replace k v).members.map Prod.fst = t.members.map Prod.fst := by
      simp only [Table.replace, List.map_map]
      refine List.map_congr_left fun m _ => ?_
      simp only [Function.comp_apply]
      split
      · rename_i hkey
        exact hkey.symm
      · rfl
    rw [hsame]
    exact h.keys
  values := by
    intro m hm
    obtain ⟨m', hm', rfl⟩ := List.mem_map.1 hm
    split
    · exact hv
    · exact h.values m' hm'

/-- A change deep within a table keeps the keys apart if it does so where it happens. -/
theorem within (hchange : ∀ t t', t.KeysApart → change t = some t' → t'.KeysApart)
    (h : t.KeysApart) (hwithin : within byDots change path t = some t') : t'.KeysApart := by
  induction path generalizing t t' with
  | nil => exact hchange t t' h hwithin
  | cons k path ih =>
      rw [Toml.within] at hwithin
      split at hwithin
      · rename_i hnone
        obtain ⟨sub, hsub, hlast⟩ := Option.bind_eq_some_iff.1 hwithin
        cases hlast
        exact h.append hnone (ih (.empty _) hsub).toValue
      · rename_i hget
        split at hwithin
        · cases hwithin
        · obtain ⟨sub, hsub, hlast⟩ := Option.bind_eq_some_iff.1 hwithin
          cases hlast
          exact h.replace (ih (h.of_get? hget).ofTable hsub).toValue
      · rename_i items hget
        have hitems := (h.of_get? hget).items
        split at hwithin
        · rename_i hfinal
          obtain ⟨sub, hsub, hlast⟩ := Option.bind_eq_some_iff.1 hwithin
          cases hlast
          have hlastItem := hitems _ (List.mem_of_getLast? hfinal)
          refine h.replace (.list (List.forall_mem_append.2 ⟨?_, ?_⟩))
          · exact fun v hv => hitems v (List.mem_of_mem_dropLast hv)
          · simpa using (ih hlastItem.ofTable hsub).toValue
        · cases hwithin
      · cases hwithin

/-- A member that is given has a new key. -/
theorem assign (h : t.KeysApart) (hv : v.KeysApart) (hassign : t.assign path k v = some t') :
    t'.KeysApart := by
  refine h.within ?_ hassign
  intro t t' ht hchange
  split at hchange
  · cases hchange
  · split at hchange
    · cases hchange
    · rename_i hnew
      cases hchange
      exact ht.append (by simpa using hnew) hv

theorem openTable (h : t.KeysApart) (hopen : t.openTable path k = some t') : t'.KeysApart := by
  refine h.within ?_ hopen
  intro t t' ht hchange
  split at hchange
  · rename_i hnone
    cases hchange
    exact ht.append hnone (Table.KeysApart.empty .header).toValue
  · rename_i hget
    cases hchange
    exact ht.replace (.table (ht.of_get? hget).ofTable.keys (ht.of_get? hget).ofTable.values)
  · cases hchange

theorem openElement (h : t.KeysApart) (hopen : t.openElement path k = some t') :
    t'.KeysApart := by
  have hnew : (Value.table .header []).KeysApart := (Table.KeysApart.empty .header).toValue
  refine h.within ?_ hopen
  intro t t' ht hchange
  split at hchange
  · rename_i hnone
    cases hchange
    exact ht.append hnone (.list (by simpa using hnew))
  · rename_i hget
    cases hchange
    have hitems := (ht.of_get? hget).items
    exact ht.replace (.list (List.forall_mem_append.2 ⟨hitems, by simpa using hnew⟩))
  · cases hchange

end Table.KeysApart

/-! ### Values -/

/-- A scalar has no keys. -/
theorem keysApart_of_readScalar? {cs : List Char} (h : readScalar? cs = some v) : v.KeysApart := by
  unfold readScalar? at h
  split at h
  · cases h
    exact .boolean _
  split at h
  · cases h
    exact .boolean _
  split at h
  · cases h
    exact .integer _
  split at h
  · cases h
    exact .float _
  split at h
  · cases h
    exact .dateTime _
  · cases h

/-- What the readers of values, of the items of a list and of the members of a table in braces find
in so many steps has its keys apart. -/
structure ReadsApart (steps : Nat) : Prop where
  value {depth : Nat} {cs r : List Char} {v : Value} :
    readValueIn steps depth cs = some (v, r) → v.KeysApart
  items {depth : Nat} {cs r : List Char} {vs : List Value} :
    readItemsIn steps depth cs = some (vs, r) → ∀ v ∈ vs, v.KeysApart
  members {depth : Nat} {cs r : List Char} {t t' : Table} :
    t.KeysApart → readMembersIn steps depth t cs = some (t', r) → t'.KeysApart

namespace ReadsApart

variable {steps depth : Nat} {cs r : List Char}

theorem value_succ (h : ReadsApart steps) (hread : readValueIn (steps + 1) depth cs = some (v, r)) :
    v.KeysApart := by
  have hstring {found : Option (List Char × List Char)}
      (h : (found.map fun x => (Value.string x.1, x.2)) = some (v, r)) : v.KeysApart := by
    obtain ⟨_, -, hlast⟩ := Option.map_eq_some_iff.1 h
    cases hlast
    exact .string _
  unfold readValueIn at hread
  split at hread
  · exact hstring hread
  · exact hstring hread
  · exact hstring hread
  · exact hstring hread
  · split at hread
    · cases hread
    · obtain ⟨⟨vs, r⟩, hitems, hlast⟩ := Option.bind_eq_some_iff.1 hread
      cases hlast
      exact .list (h.items hitems)
  · split at hread
    · cases hread
    · obtain ⟨⟨t, r⟩, hmembers, hlast⟩ := Option.bind_eq_some_iff.1 hread
      cases hlast
      exact (h.members (.empty _) hmembers).toValue
  · obtain ⟨v, hscalar, hlast⟩ := Option.bind_eq_some_iff.1 hread
    cases hlast
    exact keysApart_of_readScalar? hscalar

theorem items_succ {vs : List Value} (h : ReadsApart steps)
    (hread : readItemsIn (steps + 1) depth cs = some (vs, r)) : ∀ v ∈ vs, v.KeysApart := by
  unfold readItemsIn at hread
  obtain ⟨cs, -, hread⟩ := Option.bind_eq_some_iff.1 hread
  split at hread
  · cases hread
    exact List.forall_mem_nil _
  · obtain ⟨⟨v, r⟩, hvalue, hread⟩ := Option.bind_eq_some_iff.1 hread
    obtain ⟨cs, -, hread⟩ := Option.bind_eq_some_iff.1 hread
    split at hread
    · obtain ⟨⟨vs, r⟩, hitems, hlast⟩ := Option.bind_eq_some_iff.1 hread
      cases hlast
      exact List.forall_mem_cons.2 ⟨h.value hvalue, h.items hitems⟩
    · cases hread
      exact List.forall_mem_singleton.2 (h.value hvalue)
    · cases hread

theorem members_succ (h : ReadsApart steps) (ht : t.KeysApart)
    (hread : readMembersIn (steps + 1) depth t cs = some (t', r)) : t'.KeysApart := by
  unfold readMembersIn at hread
  obtain ⟨cs, -, hread⟩ := Option.bind_eq_some_iff.1 hread
  split at hread
  · cases hread
    exact ht
  · obtain ⟨⟨⟨path, k⟩, r⟩, -, hread⟩ := Option.bind_eq_some_iff.1 hread
    obtain ⟨cs, -, hread⟩ := Option.bind_eq_some_iff.1 hread
    obtain ⟨cs, -, hread⟩ := Option.bind_eq_some_iff.1 hread
    obtain ⟨cs, -, hread⟩ := Option.bind_eq_some_iff.1 hread
    obtain ⟨⟨v, r⟩, hvalue, hread⟩ := Option.bind_eq_some_iff.1 hread
    obtain ⟨table, hassign, hread⟩ := Option.bind_eq_some_iff.1 hread
    have htable := ht.assign (h.value hvalue) hassign
    obtain ⟨cs, -, hread⟩ := Option.bind_eq_some_iff.1 hread
    split at hread
    · exact h.members htable hread
    · cases hread
      exact htable
    · cases hread

end ReadsApart

/-- Whatever is read has its keys apart. -/
theorem readsApart (steps : Nat) : ReadsApart steps := by
  induction steps with
  | zero => exact ⟨nofun, nofun, nofun⟩
  | succ steps ih => exact ⟨ih.value_succ, ih.items_succ, ih.members_succ⟩

/-! ### Documents -/

section Document

variable {d d' : Document} {cs r : List Char}

theorem keysApart_of_readHeader? (h : d.root.KeysApart) (hread : readHeader? d cs = some (d', r)) :
    d'.root.KeysApart := by
  obtain ⟨⟨⟨path, k⟩, r⟩, -, hread⟩ := Option.bind_eq_some_iff.1 hread
  obtain ⟨r, -, hread⟩ := Option.bind_eq_some_iff.1 hread
  obtain ⟨root, hopen, hlast⟩ := Option.bind_eq_some_iff.1 hread
  cases hlast
  exact h.openTable hopen

theorem keysApart_of_readElementHeader? (h : d.root.KeysApart)
    (hread : readElementHeader? d cs = some (d', r)) : d'.root.KeysApart := by
  obtain ⟨⟨⟨path, k⟩, r⟩, -, hread⟩ := Option.bind_eq_some_iff.1 hread
  obtain ⟨r, -, hread⟩ := Option.bind_eq_some_iff.1 hread
  obtain ⟨r, -, hread⟩ := Option.bind_eq_some_iff.1 hread
  obtain ⟨root, hopen, hlast⟩ := Option.bind_eq_some_iff.1 hread
  cases hlast
  exact h.openElement hopen

theorem keysApart_of_readMember? (h : d.root.KeysApart) (hread : readMember? d cs = some (d', r)) :
    d'.root.KeysApart := by
  obtain ⟨⟨⟨path, k⟩, r⟩, -, hread⟩ := Option.bind_eq_some_iff.1 hread
  obtain ⟨r, -, hread⟩ := Option.bind_eq_some_iff.1 hread
  obtain ⟨⟨v, r⟩, hvalue, hread⟩ := Option.bind_eq_some_iff.1 hread
  obtain ⟨root, hwithin, hlast⟩ := Option.bind_eq_some_iff.1 hread
  cases hlast
  have hv : v.KeysApart := (readsApart _).value hvalue
  exact h.within (fun _ _ ht hassign => ht.assign hv hassign) hwithin

/-- Every line keeps the keys apart, and so do all of them. -/
theorem keysApart_of_readLinesOfIn {steps : Nat} (h : d.root.KeysApart)
    (hread : readLinesOfIn steps d cs = some d') : d'.root.KeysApart := by
  induction steps generalizing d cs with
  | zero => cases hread
  | succ steps ih =>
      unfold readLinesOfIn at hread
      obtain ⟨cs, -, hread⟩ := Option.bind_eq_some_iff.1 hread
      split at hread
      · cases hread
        exact h
      · have hrest {next : Document} {r : List Char} (hnext : next.root.KeysApart)
            (hlines : (do readLinesOfIn steps next (← afterLine? r)) = some d') :
            d'.root.KeysApart := by
          obtain ⟨r, -, hlines⟩ := Option.bind_eq_some_iff.1 hlines
          exact ih hnext hlines
        dsimp only at hread
        split at hread
        · obtain ⟨next, hline, hlines⟩ := Option.bind_eq_some_iff.1 hread
          exact hrest (keysApart_of_readElementHeader? h hline) hlines
        · obtain ⟨next, hline, hlines⟩ := Option.bind_eq_some_iff.1 hread
          exact hrest (keysApart_of_readHeader? h hline) hlines
        · obtain ⟨next, hline, hlines⟩ := Option.bind_eq_some_iff.1 hread
          exact hrest (keysApart_of_readMember? h hline) hlines

end Document

/-- No table of a document has two members of one key. -/
theorem keysApart_of_parse? {s : String} (h : parse? s = some t) : t.KeysApart := by
  obtain ⟨d, hread, rfl⟩ := Option.map_eq_some_iff.1 h
  exact keysApart_of_readLinesOfIn (.empty .header) hread

end Toml

/-! ### Settings -/

/-- The order in which a document gives the settings makes no difference. -/
theorem Settings.ofTable?_eq_of_perm {document : String} {t t' : Toml.Table}
    (h : Toml.parse? document = some t) (hperm : t'.members.Perm t.members) :
    ofTable? t' = ofTable? t := by
  have hapart := Toml.keysApart_of_parse? h
  have hget (k : Toml.Key) : t'.get? k = t.get? k := by
    ext v
    rw [(hapart.of_perm hperm).get?_eq_some_iff, hapart.get?_eq_some_iff, hperm.mem_iff]
  simp only [ofTable?, valueOr, hget]

end Calculator
