/-
**The erase key takes back the keys of the pad.**

The erase key does not know what has been inserted.  It looks at the end of the entry for one of the
texts that are erased as one symbol, and takes off a single character if there is none.  Two things
could go wrong.  A key that inserts a whole symbol might lose more or less than this symbol; it does
not, since no symbol is the end of another one, so that at most one of them ends an entry.  And a
key that inserts one character might complete a symbol that began before it, as `(` would behind a
typed `sin`.  It does not either, because no key leaves a symbol open: what the pad inserts ends
neither in a space nor in a character that one more character would make a symbol of.

An entry of any other origin loses at least one character, and only from its end.

Main definitions

* `Calculator.Key.inserted`, `Calculator.insertionKeys`, `Calculator.insertedText` — the texts that
  the keys of the pad insert;
* `Calculator.Settled` — a text that leaves no symbol open.

Main results

* `Calculator.eraseLastSymbol_append_key` — behind a settled text, the last key is erased;
* `Calculator.exists_eraseLastSymbol_append` — something is erased, and from the end;
* `Calculator.Session.erase_takes_back_keys` — the same for sessions, and for any number of presses.
-/

import Calculator.Proofs.FailedEntry
import Calculator.Screen.Keypad
import Mathlib.Data.List.Induction

set_option autoImplicit false

namespace Calculator

/-! ### What the pad inserts -/

/-- The text that a key inserts; a command inserts none. -/
def Key.inserted (k : Key) : List Char :=
  match k.role with
  | .insertion text => text.toList
  | .command _ => []

/-- The keys of the pad that insert a text. -/
def insertionKeys : List Key := padKeys.filter (!·.isCommand)

/-- The text that keys insert one after the other. -/
def insertedText (keys : List Key) : List Char := keys.flatMap Key.inserted

/-- Pressing a key of the pad that inserts a text inserts this text. -/
theorem action_of_mem_insertionKeys {k : Key} (h : k ∈ insertionKeys) :
    k.action = .insert (String.ofList k.inserted) := by
  obtain ⟨label, role⟩ := k
  cases role with
  | insertion text => rw [Key.action_insertion, Key.inserted, String.ofList_toList]
  | command a => cases (List.mem_filter.1 h).2

/-! ### One symbol at the end -/

/-- No symbol is the end of another one. -/
theorem eq_of_suffix_of_mem_erasedAsOne {p q : List Char} (hp : p ∈ erasedAsOne)
    (hq : q ∈ erasedAsOne) (h : p <:+ q) : p = q := by
  have key : ∀ p ∈ erasedAsOne, ∀ q ∈ erasedAsOne, p <:+ q → p = q := by decide
  exact key p hp q hq h

theorem ne_nil_of_mem_erasedAsOne {symbol : List Char} (h : symbol ∈ erasedAsOne) :
    symbol ≠ [] := by
  have key : ∀ symbol ∈ erasedAsOne, symbol ≠ [] := by decide
  exact key symbol h

/-- A symbol at the end is erased as a whole. -/
theorem dropLastSymbol_append_symbol (cs : List Char) {symbol : List Char}
    (h : symbol ∈ erasedAsOne) : dropLastSymbol (cs ++ symbol) = cs := by
  have hends : symbol <:+ cs ++ symbol := List.suffix_append cs symbol
  have hfind : erasedAsOne.find? (·.isSuffixOf (cs ++ symbol)) = some symbol := by
    cases hp : erasedAsOne.find? (·.isSuffixOf (cs ++ symbol)) with
    | none =>
        have hnot := List.find?_eq_none.1 hp symbol h
        exact absurd (List.isSuffixOf_iff_suffix.2 hends) hnot
    | some p =>
        have hpmem : p ∈ erasedAsOne := List.mem_of_find?_eq_some hp
        have hpends : p <:+ cs ++ symbol := by simpa using List.find?_some hp
        -- of two texts at the same end the shorter one ends the other
        obtain hle | hle := List.suffix_or_suffix_of_suffix hpends hends
        · rw [eq_of_suffix_of_mem_erasedAsOne hpmem h hle]
        · rw [eq_of_suffix_of_mem_erasedAsOne h hpmem hle]
  simp [dropLastSymbol, hfind]

/-- A text that leaves no symbol open: it ends neither in a space nor in a character that one more
character would make a symbol of. -/
def Settled (cs : List Char) : Prop :=
  ∀ c ∈ cs.getLast?, c ≠ ' ' ∧ ∀ symbol ∈ erasedAsOne, symbol.dropLast.getLast? ≠ some c

instance (cs : List Char) : Decidable (Settled cs) := cs.getLast?.decidableForallMem

/-- Behind a settled text, a character that is no symbol by itself completes none. -/
theorem dropLastSymbol_append_char {cs : List Char} (hcs : Settled cs) {c : Char}
    (hc : [c] ∉ erasedAsOne) : dropLastSymbol (cs ++ [c]) = cs := by
  have hfind : erasedAsOne.find? (·.isSuffixOf (cs ++ [c])) = none := by
    rw [List.find?_eq_none]
    intro symbol hsymbol hends
    obtain ⟨before, hbefore⟩ := List.isSuffixOf_iff_suffix.1 hends
    have hne := ne_nil_of_mem_erasedAsOne hsymbol
    -- the symbol is its last character, which is `c`, behind an end of `cs`
    rw [← List.dropLast_concat_getLast hne, ← List.append_assoc] at hbefore
    obtain ⟨hinit, hlast⟩ := List.append_inj' hbefore rfl
    cases hopen : symbol.dropLast.getLast? with
    | none =>
        rw [List.getLast?_eq_none_iff] at hopen
        rw [← List.dropLast_concat_getLast hne, hopen, hlast, List.nil_append] at hsymbol
        exact hc hsymbol
    | some d =>
        have hd : d ∈ cs.getLast? := by simp [← hinit, List.getLast?_append, hopen]
        exact (hcs d hd).2 symbol hsymbol hopen
  simp [dropLastSymbol, hfind]

/-! ### Keys -/

/-- A key of the pad inserts a symbol or one character that is none, and leaves no symbol open. -/
theorem inserted_of_mem_insertionKeys {k : Key} (h : k ∈ insertionKeys) :
    (k.inserted ∈ erasedAsOne ∨ ∃ c, [c] ∉ erasedAsOne ∧ k.inserted = [c]) ∧
      Settled k.inserted ∧ k.inserted ≠ [] := by
  have hkinds : ∀ k ∈ insertionKeys,
      k.inserted ∈ erasedAsOne ∨ k.inserted ∉ erasedAsOne ∧ k.inserted.length = 1 := by decide
  have hsettled : ∀ k ∈ insertionKeys, Settled k.inserted := by decide
  have hne : ∀ k ∈ insertionKeys, k.inserted ≠ [] := by decide
  refine ⟨(hkinds k h).imp_right ?_, hsettled k h, hne k h⟩
  rintro ⟨hnot, hlength⟩
  obtain ⟨c, hc⟩ := List.length_eq_one_iff.1 hlength
  exact ⟨c, hc ▸ hnot, hc⟩

theorem dropTrailingSpaces_of_settled {cs : List Char} (h : Settled cs) :
    dropTrailingSpaces cs = cs := by
  have hhead : cs.reverse.dropWhile (· == ' ') = cs.reverse := by
    cases hcs : cs.reverse with
    | nil => rfl
    | cons c rest =>
        have hlast : c ∈ cs.getLast? := by simp [List.getLast?_eq_head?_reverse, hcs]
        simp [(h c hlast).1]
  rw [dropTrailingSpaces, hhead, List.reverse_reverse]

/-- The end of a text that ends in a settled one is settled. -/
theorem Settled.append (cs : List Char) {ds : List Char} (h : Settled ds) (hne : ds ≠ []) :
    Settled (cs ++ ds) := by
  intro c hc
  rw [List.getLast?_append, Option.or_of_isSome (by simpa using hne)] at hc
  exact h c hc

/-- Behind a settled text, the erase key takes back the last key. -/
theorem eraseLastSymbol_append_key {cs : List Char} (hcs : Settled cs) {k : Key}
    (hk : k ∈ insertionKeys) : eraseLastSymbol (cs ++ k.inserted) = cs := by
  obtain ⟨hkind, hsettled, hne⟩ := inserted_of_mem_insertionKeys hk
  have hdrop : dropLastSymbol (cs ++ k.inserted) = cs := by
    obtain hsymbol | ⟨c, hc, hinserted⟩ := hkind
    · exact dropLastSymbol_append_symbol cs hsymbol
    · rw [hinserted]
      exact dropLastSymbol_append_char hcs hc
  rw [eraseLastSymbol, dropTrailingSpaces_of_settled (hsettled.append cs hne), hdrop,
    dropTrailingSpaces_of_settled hcs]

/-- Keys of the pad leave no symbol open, however many there are. -/
theorem settled_insertedText {keys : List Key} (h : ∀ k ∈ keys, k ∈ insertionKeys) :
    Settled (insertedText keys) := by
  induction keys using List.reverseRecOn with
  | nil =>
      intro c hc
      cases hc
  | append_singleton keys k ih =>
      obtain ⟨-, hsettled, hne⟩ := inserted_of_mem_insertionKeys (h k (by simp))
      simpa [insertedText] using hsettled.append (insertedText keys) hne

/-! ### Any text -/

theorem dropLastSymbol_isPrefix (cs : List Char) : dropLastSymbol cs <+: cs := by
  unfold dropLastSymbol
  split
  · exact List.take_prefix _ cs
  · exact List.dropLast_prefix cs

theorem length_dropLastSymbol_lt {cs : List Char} (hne : cs ≠ []) :
    (dropLastSymbol cs).length < cs.length := by
  have hpos : 0 < cs.length := List.length_pos_iff.2 hne
  unfold dropLastSymbol
  split
  · rename_i symbol hfind
    have hsymbol : 0 < symbol.length :=
      List.length_pos_iff.2 (ne_nil_of_mem_erasedAsOne (List.mem_of_find?_eq_some hfind))
    rw [List.length_take]
    omega
  · rw [List.length_dropLast]
    omega

theorem eraseLastSymbol_isPrefix (cs : List Char) : eraseLastSymbol cs <+: cs :=
  ((dropTrailingSpaces_isPrefix _).trans (dropLastSymbol_isPrefix _)).trans
    (dropTrailingSpaces_isPrefix cs)

theorem length_eraseLastSymbol_lt {cs : List Char} (hne : cs ≠ []) :
    (eraseLastSymbol cs).length < cs.length := by
  have hle : (eraseLastSymbol cs).length ≤ (dropLastSymbol (dropTrailingSpaces cs)).length :=
    (dropTrailingSpaces_isPrefix _).length_le
  have hspaces : (dropTrailingSpaces cs).length ≤ cs.length :=
    (dropTrailingSpaces_isPrefix cs).length_le
  -- a text of spaces loses all of them and has no symbol to lose
  by_cases hnil : dropTrailingSpaces cs = []
  · have hempty : (dropLastSymbol (dropTrailingSpaces cs)).length = 0 := by
      rw [hnil]
      rfl
    have hpos : 0 < cs.length := List.length_pos_iff.2 hne
    omega
  · have hlt := length_dropLastSymbol_lt hnil
    omega

/-- Something is erased from every text but the empty one, and from its end. -/
theorem exists_eraseLastSymbol_append {cs : List Char} (hne : cs ≠ []) :
    ∃ tail ≠ [], cs = eraseLastSymbol cs ++ tail := by
  obtain ⟨tail, htail⟩ := eraseLastSymbol_isPrefix cs
  refine ⟨tail, ?_, htail.symm⟩
  rintro rfl
  have hlt := length_eraseLastSymbol_lt hne
  rw [List.append_nil] at htail
  rw [htail] at hlt
  exact Nat.lt_irrefl _ hlt

/-! ### Sessions -/

namespace Session

variable {s : Session} {keys : List Key}

theorem entry_insert (h : s.inputAllowed = true) (text : String) :
    (s.insert text).entry = s.entry ++ text := by
  rw [insert, if_pos h]
  rfl

/-- Where input is allowed, the erase key erases the last symbol of the entry. -/
theorem toList_entry_eraseLast (h : s.inputAllowed = true) :
    s.eraseLast.entry.toList = eraseLastSymbol s.entry.toList := by
  unfold eraseLast
  split
  · exact String.toList_ofList
  · rename_i hempty
    have hentry : s.entry = "" := by simpa [h] using hempty
    rw [hentry]
    rfl

/-- Keys that insert append their texts to the entry, and input stays allowed. -/
theorem run_keys (h : s.inputAllowed = true) (hkeys : ∀ k ∈ keys, k ∈ insertionKeys) :
    (s.run (keys.map Key.action)).inputAllowed = true ∧
      (s.run (keys.map Key.action)).entry.toList = s.entry.toList ++ insertedText keys := by
  induction keys generalizing s with
  | nil => exact ⟨h, (List.append_nil _).symm⟩
  | cons k keys ih =>
      have haction := action_of_mem_insertionKeys (hkeys k (List.mem_cons_self ..))
      have hallowed : (s.step k.action).1.inputAllowed = true :=
        inputAllowed_step h (by rw [haction]; simp)
      have hentry : (s.step k.action).1.entry.toList = s.entry.toList ++ k.inserted := by
        rw [haction]
        change (s.insert _).entry.toList = _
        rw [entry_insert h, String.toList_append, String.toList_ofList]
      obtain ⟨hrun, htext⟩ := ih hallowed fun k' hk' => hkeys k' (List.mem_cons_of_mem _ hk')
      refine ⟨hrun, ?_⟩
      rw [List.map_cons, run_cons, htext, hentry, List.append_assoc]
      rfl

/-- The erase key takes back the last key that is left in the entry. -/
theorem toList_entry_eraseLast_of_keys (h : s.inputAllowed = true)
    (hkeys : ∀ k ∈ keys, k ∈ insertionKeys) (hentry : s.entry.toList = insertedText keys) :
    s.eraseLast.entry.toList = insertedText keys.dropLast := by
  rw [toList_entry_eraseLast h, hentry]
  cases keys using List.reverseRecOn with
  | nil => rfl
  | append_singleton keys k =>
      have hbefore : Settled (insertedText keys) :=
        settled_insertedText fun k' hk' => hkeys k' (List.mem_append_left _ hk')
      rw [List.dropLast_concat]
      simpa [insertedText] using eraseLastSymbol_append_key hbefore (hkeys k (by simp))

/-- Pressing the erase key a number of times takes back as many keys. -/
theorem run_eraseLast (h : s.inputAllowed = true) (hkeys : ∀ k ∈ keys, k ∈ insertionKeys)
    (hentry : s.entry.toList = insertedText keys) (presses : Nat) :
    (s.run (List.replicate presses .eraseLast)).entry.toList =
      insertedText (keys.take (keys.length - presses)) := by
  induction presses generalizing s keys with
  | zero => simpa using hentry
  | succ presses ih =>
      have hallowed : s.eraseLast.inputAllowed = true :=
        inputAllowed_step h (a := .eraseLast) (by simp)
      have hleft : ∀ k ∈ keys.dropLast, k ∈ insertionKeys :=
        fun k hk => hkeys k (List.dropLast_subset keys hk)
      have hpressed := ih hallowed hleft (toList_entry_eraseLast_of_keys h hkeys hentry)
      have htake : keys.dropLast.take (keys.dropLast.length - presses) =
          keys.take (keys.length - (presses + 1)) := by
        rw [List.dropLast_eq_take, List.take_take, List.length_take]
        congr 1
        omega
      rw [htake] at hpressed
      exact hpressed

/-- **The erase key takes back the keys of the pad.**  In a session that allows input and has an
empty entry, pressing any keys of the pad that insert a text and then the erase key any number of
times leaves exactly what the keys inserted without as many of the last of them: one press takes
back the last key, and as many presses as keys empty the entry.  And from an entry of any other
origin the erase key takes at least one character, only from its end. -/
theorem erase_takes_back_keys :
    (∀ s : Session, s.inputAllowed = true → s.entry = "" →
        ∀ keys : List Key, (∀ k ∈ keys, k ∈ insertionKeys) → ∀ presses : Nat,
          (s.run (keys.map Key.action ++ List.replicate presses .eraseLast)).entry.toList =
            insertedText (keys.take (keys.length - presses))) ∧
      ∀ s : Session, s.inputAllowed = true → s.entry ≠ "" →
        ∃ tail ≠ "", s.entry = s.eraseLast.entry ++ tail := by
  constructor
  · intro s hallowed hempty keys hkeys presses
    obtain ⟨hrun, htext⟩ := run_keys hallowed hkeys
    rw [hempty, String.toList_empty, List.nil_append] at htext
    rw [run_append]
    exact run_eraseLast hrun hkeys htext presses
  · intro s hallowed hne
    have hlist : s.entry.toList ≠ [] := by simpa using hne
    obtain ⟨tail, htail, hentry⟩ := exists_eraseLastSymbol_append hlist
    refine ⟨String.ofList tail, by simpa using htail, ?_⟩
    rw [← String.toList_inj, String.toList_append, String.toList_ofList,
      toList_entry_eraseLast hallowed]
    exact hentry

/-- The keys `sin`, `(` and `π` are taken back one by one, although two of them end in the same
character; of a typed `2 + sin( ` a single press leaves `2 +`. -/
theorem erase_takes_back_keys_sine :
    (let s := Session.new {} false;
      let keys : List Key := [⟨"sin", .insertion "sin("⟩, .plain "(", .plain "π"];
      s.inputAllowed = true ∧ s.entry = "" ∧ (∀ k ∈ keys, k ∈ insertionKeys) ∧
        (s.run (keys.map Key.action ++ [.eraseLast, .eraseLast])).entry.toList =
          ['s', 'i', 'n', '('] ∧
        (s.run (keys.map Key.action ++ [.eraseLast, .eraseLast, .eraseLast])).entry.toList = []) ∧
      (let s := (Session.new {} false).setEntry "2 + sin( ";
        s.inputAllowed = true ∧ s.entry ≠ "" ∧ s.eraseLast.entry.toList = ['2', ' ', '+'] ∧
          ∃ tail ≠ "", s.entry = s.eraseLast.entry ++ tail) := by
  constructor
  · intro s keys
    have hkeys : ∀ k ∈ keys, k ∈ insertionKeys := by
      simp [keys, insertionKeys, padKeys, Key.plain, Key.isCommand]
    exact ⟨rfl, rfl, hkeys, erase_takes_back_keys.1 s rfl rfl keys hkeys 2,
      erase_takes_back_keys.1 s rfl rfl keys hkeys 3⟩
  · intro s
    have hallowed : s.inputAllowed = true := rfl
    have hne : s.entry ≠ "" := by simp [s, setEntry, entryChanged]
    have hleft : s.eraseLast.entry.toList = ['2', ' ', '+'] := by
      rw [toList_entry_eraseLast hallowed]
      decide
    exact ⟨hallowed, hne, hleft, erase_takes_back_keys.2 s hallowed hne⟩

end Session

end Calculator
