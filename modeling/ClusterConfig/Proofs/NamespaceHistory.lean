import Mathlib.Data.Finset.Card
import ClusterConfig.Namespace.Operation
import ClusterConfig.Proofs.Namespace

/-!
# What a namespace holds after its history

Everything that is done to a namespace comes down to three kinds of writes: a value is put under a key, a key is taken out, or a
new collection begins. A history is the list of all these writes, and it alone tells what is under a key and when the key came
to be there. `shows_apply` is about one write, `foldl_writes` takes an operation apart into its writes, and `history_of_run` is
about whole runs.
-/

namespace ClusterConfig

/-- One write to a namespace. -/
inductive NamespaceWrite where
  | put (key : String) (value : Value)
  | drop (key : String)
  /-- A new collection begins, and nothing is in it. -/
  | clear

/-- All that has been written to a namespace, the newest first. -/
abbrev NamespaceHistory := List NamespaceWrite

namespace NamespaceHistory

/-- The value that was written last under a key, unless the key was taken out since. -/
def written? : NamespaceHistory → String → Option Value
  | [], _ => none
  | .put k v :: older, key => if k = key then some v else written? older key
  | .drop k :: older, key => if k = key then none else written? older key
  | .clear :: _, _ => none

/-- The key is there. -/
def Present (h : NamespaceHistory) (key : String) : Prop := (h.written? key).isSome = true

/-- For a key that is there: how much had been written before the write that made it present, since when it has been there. -/
def arrival : NamespaceHistory → String → Nat
  | [], _ => 0
  | _ :: older, key => if (written? older key).isSome then arrival older key else older.length

theorem arrival_lt {h : NamespaceHistory} {key : String} (hp : h.Present key) : h.arrival key < h.length := by
  induction h with
  | nil => simp [Present, written?] at hp
  | cons w older ih =>
    rw [arrival, List.length_cons]
    split
    · rename_i hold
      exact Nat.lt_succ_of_lt (ih hold)
    · exact Nat.lt_succ_self _

/-- A key that was there before a write arrived when it had. -/
theorem arrival_cons {h : NamespaceHistory} {w : NamespaceWrite} {key : String} (hp : h.Present key) :
    arrival (w :: h) key = h.arrival key := by
  have hsome : (written? h key).isSome = true := hp
  rw [arrival, if_pos hsome]

/-- A key that was not there before a write arrives with it. -/
theorem arrival_cons_of_not {h : NamespaceHistory} {w : NamespaceWrite} {key : String} (hp : ¬h.Present key) :
    arrival (w :: h) key = h.length := by
  have hnone : ¬(written? h key).isSome = true := hp
  rw [arrival, if_neg hnone]

end NamespaceHistory

namespace Namespace

/-! ## One write -/

/-- What a write makes of a namespace. -/
def apply (ns : Namespace) : NamespaceWrite → Namespace
  | .put key value => ns.insert key value
  | .drop key => ns.erase key
  | .clear => empty

/-- A namespace shows its history: under every key stands what was written there last, and the keys are in the order of their
arrival. -/
structure Shows (ns : Namespace) (h : NamespaceHistory) : Prop where
  value : ∀ key, ns.getRaw? key = h.written? key
  order : ns.keys.Pairwise fun a b => h.arrival a < h.arrival b

theorem mem_keys_iff {ns : Namespace} {key : String} : key ∈ ns.keys ↔ (ns.getRaw? key).isSome = true := by
  rw [Option.isSome_iff_ne_none, ne_eq, getRaw?, lookup_eq_none, not_not, keys]

namespace Shows

variable {ns : Namespace} {h : NamespaceHistory}

theorem empty : empty.Shows [] := ⟨fun _ => rfl, List.Pairwise.nil⟩

theorem present (hs : ns.Shows h) (key : String) : key ∈ ns.keys ↔ h.Present key := by
  rw [mem_keys_iff, hs.value, NamespaceHistory.Present]

/-- No key occurs twice, as it would have to arrive before itself. -/
theorem nodup (hs : ns.Shows h) : ns.keys.Nodup := by
  refine hs.order.imp fun {a b} hlt => ?_
  rintro rfl
  exact Nat.lt_irrefl _ hlt

/-- Keys that were there before a write are in the same order after it. -/
theorem order_cons (hs : ns.Shows h) (w : NamespaceWrite) :
    ns.keys.Pairwise fun a b => NamespaceHistory.arrival (w :: h) a < NamespaceHistory.arrival (w :: h) b := by
  refine hs.order.imp_of_mem fun {a b} ha hb hlt => ?_
  rwa [NamespaceHistory.arrival_cons ((hs.present a).mp ha), NamespaceHistory.arrival_cons ((hs.present b).mp hb)]

theorem put (hs : ns.Shows h) (key : String) (value : Value) : (ns.insert key value).Shows (.put key value :: h) := by
  refine ⟨fun k => ?_, ?_⟩
  · rw [getRaw_insert, NamespaceHistory.written?, hs.value]
    by_cases hk : k = key
    · rw [if_pos hk, if_pos hk.symm]
    · rw [if_neg hk, if_neg (Ne.symm hk)]
  · by_cases hmem : key ∈ ns.keys
    · have hkeys : (ns.insert key value).keys = ns.keys := keys_put_of_mem hmem
      rw [hkeys]
      exact hs.order_cons _
    · have hkeys : (ns.insert key value).keys = ns.keys ++ [key] := by
        rw [keys, insert, put_of_not_mem hmem, List.map_append, List.map_cons, List.map_nil, keys]
      rw [hkeys, List.pairwise_append]
      refine ⟨hs.order_cons _, List.pairwise_singleton _ _, fun a ha b hb => ?_⟩
      obtain rfl := List.mem_singleton.mp hb
      have hpresent := (hs.present a).mp ha
      rw [NamespaceHistory.arrival_cons hpresent, NamespaceHistory.arrival_cons_of_not (mt (hs.present b).mpr hmem)]
      exact NamespaceHistory.arrival_lt hpresent

theorem drop (hs : ns.Shows h) (key : String) : (ns.erase key).Shows (.drop key :: h) := by
  refine ⟨fun k => ?_, ?_⟩
  · rw [getRaw_erase, NamespaceHistory.written?, hs.value]
    by_cases hk : k = key
    · rw [if_pos hk, if_pos hk.symm]
    · rw [if_neg hk, if_neg (Ne.symm hk)]
  · have hsub : (ns.erase key).keys.Sublist ns.keys := List.filter_sublist.map Prod.fst
    exact (hs.order_cons _).sublist hsub

theorem clear (h : NamespaceHistory) : Namespace.empty.Shows (.clear :: h) :=
  ⟨fun _ => rfl, List.Pairwise.nil⟩

end Shows

/-- A namespace still shows its history after one more write. -/
theorem shows_apply {ns : Namespace} {h : NamespaceHistory} (hs : ns.Shows h) (w : NamespaceWrite) :
    (ns.apply w).Shows (w :: h) := by
  cases w with
  | put key value => exact hs.put key value
  | drop key => exact hs.drop key
  | clear => exact .clear h

theorem shows_foldl {ns : Namespace} {h : NamespaceHistory} (hs : ns.Shows h) (writes : List NamespaceWrite) :
    (writes.foldl apply ns).Shows (writes.reverse ++ h) := by
  induction writes generalizing ns h with
  | nil => exact hs
  | cons w rest ih =>
    rw [List.foldl_cons, List.reverse_cons, List.append_assoc]
    exact ih (shows_apply hs w)

end Namespace

/-! ## One operation -/

/-- The writes of an operation on a namespace, in order. -/
def NamespaceStep.writes (ns : Namespace) : NamespaceStep → List NamespaceWrite
  | insert key value => [.put key value]
  | remove key => [.drop key]
  | edit key change => (ns.getRaw? key).toList.map fun v => .put key (change v)
  | editValues change => ns.entries.mapIdx fun i e => .put e.1 (change i e.2)
  | editEntries change => ns.entries.mapIdx fun i e => .put e.1 (change i e.1 e.2)
  | collect => .clear :: ns.entries.map fun e => .put e.1 e.2
  | reverse => .clear :: ns.entries.reverse.map fun e => .put e.1 e.2

namespace Namespace

theorem foldl_puts (pairs : List (String × Value)) (ns : Namespace) :
    (pairs.map fun e => NamespaceWrite.put e.1 e.2).foldl apply ns = pairs.foldl (fun ns e => ns.insert e.1 e.2) ns :=
  List.foldl_map

/-- Where keys are distinct, the entries are split by one that is there. -/
theorem exists_split {ns : Namespace} (hn : ns.keys.Nodup) {key : String} {v : Value} (h : ns.getRaw? key = some v) :
    ∃ before after, ns.entries = before ++ (key, v) :: after ∧ key ∉ before.map Prod.fst ∧ key ∉ after.map Prod.fst := by
  obtain ⟨before, after, hsplit, -⟩ := List.lookup_eq_some_iff.mp h
  rw [keys, hsplit, List.map_append, List.map_cons, List.nodup_middle, List.nodup_cons, List.mem_append, not_or] at hn
  exact ⟨before, after, hsplit, hn.1.1, hn.1.2⟩

theorem put_append_cons {key : String} {before after : List (String × Value)} (h : key ∉ before.map Prod.fst) (v w : Value) :
    Namespace.put key w (before ++ (key, v) :: after) = before ++ (key, w) :: after := by
  induction before with
  | nil => exact if_pos rfl
  | cons e before ih =>
    rw [List.map_cons, List.mem_cons, not_or] at h
    rw [List.cons_append, Namespace.put, if_neg (Ne.symm h.1), ih h.2, List.cons_append]

/-- Entries under other keys are not changed. -/
theorem map_of_not_mem {key : String} {entries : List (String × Value)} (h : key ∉ entries.map Prod.fst) (f : Value → Value) :
    (entries.map fun e => if e.1 = key then (e.1, f e.2) else e) = entries := by
  refine (List.map_congr_left fun e he => ?_).trans (List.map_id entries)
  exact if_neg fun heq : e.1 = key => h (heq ▸ List.mem_map_of_mem he)

theorem modify_of_not_mem {ns : Namespace} {key : String} (h : key ∉ ns.keys) (f : Value → Value) : ns.modify key f = ns :=
  congrArg Namespace.mk (map_of_not_mem h f)

/-- Where keys are distinct, a value is changed by putting the new one under its key. -/
theorem modify_eq_insert {ns : Namespace} (hn : ns.keys.Nodup) {key : String} {v : Value} (h : ns.getRaw? key = some v)
    (f : Value → Value) : ns.modify key f = ns.insert key (f v) := by
  obtain ⟨before, after, hsplit, hbefore, hafter⟩ := exists_split hn h
  rw [insert, modify, hsplit, put_append_cons hbefore, List.map_append, List.map_cons, map_of_not_mem hbefore,
    map_of_not_mem hafter, if_pos rfl]

/-- Putting new values under the keys of entries that stand after others changes these entries in place. -/
theorem foldl_puts_mapIdx (f : Nat → String → Value → Value) (done rest : List (String × Value))
    (hn : ((done ++ rest).map Prod.fst).Nodup) :
    ((rest.mapIdx fun i e => NamespaceWrite.put e.1 (f (done.length + i) e.1 e.2)).foldl apply ⟨done ++ rest⟩).entries =
      done ++ rest.mapIdx fun i e => (e.1, f (done.length + i) e.1 e.2) := by
  induction rest generalizing done with
  | nil => simp
  | cons e rest ih =>
    have hnot : e.1 ∉ done.map Prod.fst := by
      rw [List.map_append, List.nodup_append] at hn
      exact fun hmem => hn.2.2 e.1 hmem e.1 (by simp) rfl
    have hput : ∀ w, Namespace.put e.1 w (done ++ e :: rest) = done ++ (e.1, w) :: rest := put_append_cons hnot e.2
    have hstep := ih (done ++ [(e.1, f done.length e.1 e.2)]) (by simpa using hn)
    simp only [List.length_append, List.length_cons, List.length_nil, Nat.zero_add, List.append_assoc, List.cons_append,
      List.nil_append, Nat.add_assoc, Nat.add_comm 1] at hstep
    simp only [List.mapIdx_cons, List.foldl_cons, apply, insert, Nat.add_zero, hput]
    exact hstep

theorem mapPlaces_eq_foldl {ns : Namespace} (hn : ns.keys.Nodup) (f : Nat → String → Value → Value) :
    ns.mapPlaces f = (ns.entries.mapIdx fun i e => NamespaceWrite.put e.1 (f i e.1 e.2)).foldl apply ns := by
  have hfold := foldl_puts_mapIdx f [] ns.entries hn
  simp only [List.length_nil, Nat.zero_add, List.nil_append] at hfold
  exact congrArg Namespace.mk hfold.symm

/-- An operation comes down to its writes. -/
theorem foldl_writes {ns : Namespace} (hn : ns.keys.Nodup) (next : NamespaceStep) :
    (next.writes ns).foldl apply ns = (ns.step next).1 := by
  cases next with
  | insert key value => rfl
  | remove key => rfl
  | edit key change =>
    rw [NamespaceStep.writes, step]
    cases h : ns.getRaw? key with
    | none => exact (modify_of_not_mem (lookup_eq_none.mp h) change).symm
    | some v => exact (modify_eq_insert hn h change).symm
  | editValues change => exact (mapPlaces_eq_foldl hn fun i _ v => change i v).symm
  | editEntries change => exact (mapPlaces_eq_foldl hn change).symm
  | collect => exact foldl_puts ns.entries empty
  | reverse => exact foldl_puts ns.entries.reverse empty

/-! ## What an operation answers and leaves -/

/-- What an operation makes of entries, and what it answers. -/
inductive Performs : NamespaceStep → List (String × Value) → List (String × Value) → NamespaceReply → Prop where
  /-- A new key goes to the end. -/
  | insertNew {key : String} {value : Value} {entries : List (String × Value)} : key ∉ entries.map Prod.fst →
      Performs (.insert key value) entries (entries ++ [(key, value)]) (.former none)
  /-- A value that is there gives its place to the new one, and is the answer. -/
  | replace {key : String} {value old : Value} {before after : List (String × Value)} :
      Performs (.insert key value) (before ++ (key, old) :: after) (before ++ (key, value) :: after) (.former (some old))
  | remove {key : String} {old : Value} {before after : List (String × Value)} :
      Performs (.remove key) (before ++ (key, old) :: after) (before ++ after) (.former (some old))
  | removeMissing {key : String} {entries : List (String × Value)} : key ∉ entries.map Prod.fst →
      Performs (.remove key) entries entries (.former none)
  | edit {key : String} {change : Value → Value} {old : Value} {before after : List (String × Value)} :
      Performs (.edit key change) (before ++ (key, old) :: after) (before ++ (key, change old) :: after) (.changed true)
  | editMissing {key : String} {change : Value → Value} {entries : List (String × Value)} : key ∉ entries.map Prod.fst →
      Performs (.edit key change) entries entries (.changed false)
  | editValues {change : Nat → Value → Value} {entries : List (String × Value)} :
      Performs (.editValues change) entries (entries.mapIdx fun i e => (e.1, change i e.2)) .done
  | editEntries {change : Nat → String → Value → Value} {entries : List (String × Value)} :
      Performs (.editEntries change) entries (entries.mapIdx fun i e => (e.1, change i e.1 e.2)) .done
  | collect {entries : List (String × Value)} : Performs .collect entries entries .done
  | reverse {entries : List (String × Value)} : Performs .reverse entries entries.reverse .done

/-- The key that an operation is on, where it is on one. -/
def keyOf : NamespaceStep → Option String
  | .insert key _ => some key
  | .remove key => some key
  | .edit key _ => some key
  | _ => none

theorem drop_of_not_mem {key : String} {entries : List (String × Value)} (h : key ∉ entries.map Prod.fst) :
    drop key entries = entries := by
  refine List.filter_eq_self.mpr fun e he => bne_iff_ne.mpr ?_
  rintro rfl
  exact h (List.mem_map_of_mem he)

theorem drop_append_cons {key : String} {before after : List (String × Value)} (v : Value) :
    drop key (before ++ (key, v) :: after) = drop key before ++ drop key after := by
  rw [drop, List.filter_append, List.filter_cons_of_neg (by simp), drop, drop]

/-- An operation on one key leaves the entries under other keys as they are, in the order they are in. -/
theorem Performs.others {next : NamespaceStep} {entries entries' : List (String × Value)} {reply : NamespaceReply}
    (h : Performs next entries entries' reply) {key : String} (hkey : keyOf next = some key) :
    drop key entries' = drop key entries := by
  cases h with
  | insertNew hnot =>
    cases hkey
    rw [drop, List.filter_append, List.filter_cons_of_neg (by simp), List.filter_nil, List.append_nil, drop]
  | replace => cases hkey; rw [drop_append_cons, drop_append_cons]
  | remove => cases hkey; rw [drop_append_cons, drop, List.filter_append, drop, drop]
  | edit => cases hkey; rw [drop_append_cons, drop_append_cons]
  | removeMissing | editMissing => rfl
  | editValues | editEntries | collect | reverse => cases hkey

/-- What each operation does to a namespace whose keys are distinct. -/
theorem performs_step {ns : Namespace} (hn : ns.keys.Nodup) (next : NamespaceStep) :
    Performs next ns.entries (ns.step next).1.entries (ns.step next).2 := by
  cases next with
  | insert key value =>
    simp only [step, insert]
    cases h : ns.getRaw? key with
    | none =>
      have hnot := lookup_eq_none.mp h
      rw [put_of_not_mem hnot]
      exact .insertNew hnot
    | some old =>
      obtain ⟨before, after, hsplit, hbefore, -⟩ := exists_split hn h
      rw [hsplit, put_append_cons hbefore]
      exact .replace
  | remove key =>
    simp only [step, erase]
    cases h : ns.getRaw? key with
    | none =>
      have hnot := lookup_eq_none.mp h
      rw [drop_of_not_mem hnot]
      exact .removeMissing hnot
    | some old =>
      obtain ⟨before, after, hsplit, hbefore, hafter⟩ := exists_split hn h
      rw [hsplit, drop_append_cons, drop_of_not_mem hbefore, drop_of_not_mem hafter]
      exact .remove
  | edit key change =>
    simp only [step, contains]
    cases h : ns.getRaw? key with
    | none =>
      have hnot := lookup_eq_none.mp h
      rw [modify_of_not_mem hnot]
      exact .editMissing hnot
    | some old =>
      obtain ⟨before, after, hsplit, hbefore, -⟩ := exists_split hn h
      rw [modify_eq_insert hn h, insert, hsplit, put_append_cons hbefore]
      exact .edit
  | editValues change => exact .editValues
  | editEntries change => exact .editEntries
  | collect =>
    simp only [step]
    rw [entries_ofPairs hn]
    exact .collect
  | reverse =>
    have hreverse : (ns.entries.reverse.map Prod.fst).Nodup := by
      rw [List.map_reverse]
      exact List.nodup_reverse.mpr hn
    simp only [step, reversed]
    rw [entries_ofPairs hreverse]
    exact .reverse

/-! ## Runs -/

/-- The history of a namespace that has got a history already and is worked on further. -/
def continueHistory (ns : Namespace) (h : NamespaceHistory) : List NamespaceStep → NamespaceHistory
  | [] => h
  | next :: rest => continueHistory (ns.step next).1 ((next.writes ns).reverse ++ h) rest

/-- The history of a namespace that is collected from pairs and worked on. -/
def history (pairs : List (String × Value)) (steps : List NamespaceStep) : NamespaceHistory :=
  continueHistory (ofPairs pairs) (pairs.map fun e => NamespaceWrite.put e.1 e.2).reverse steps

theorem shows_step {ns : Namespace} {h : NamespaceHistory} (hs : ns.Shows h) (next : NamespaceStep) :
    (ns.step next).1.Shows ((next.writes ns).reverse ++ h) := by
  rw [← foldl_writes hs.nodup]
  exact shows_foldl hs _

theorem shows_run {ns : Namespace} {h : NamespaceHistory} (hs : ns.Shows h) (steps : List NamespaceStep) :
    (ns.run steps).1.Shows (ns.continueHistory h steps) := by
  induction steps generalizing ns h with
  | nil => exact hs
  | cons next rest ih => exact ih (shows_step hs next)

/-- A namespace that has just been collected shows the pairs as its history. -/
theorem shows_ofPairs (pairs : List (String × Value)) :
    (ofPairs pairs).Shows (pairs.map fun e => NamespaceWrite.put e.1 e.2).reverse := by
  have hs := shows_foldl Shows.empty (pairs.map fun e => NamespaceWrite.put e.1 e.2)
  rwa [foldl_puts, List.append_nil] at hs

theorem run_append (ns : Namespace) (steps more : List NamespaceStep) :
    ns.run (steps ++ more) =
      (((ns.run steps).1.run more).1, (ns.run steps).2 ++ ((ns.run steps).1.run more).2) := by
  induction steps generalizing ns with
  | nil => rfl
  | cons next rest ih => simp only [List.cons_append, run, ih]

theorem length_replies (ns : Namespace) (steps : List NamespaceStep) : (ns.run steps).2.length = steps.length := by
  induction steps generalizing ns with
  | nil => rfl
  | cons next rest ih => exact congrArg (· + 1) (ih _)

/-- What a namespace tells about its history: no key occurs twice, the keys that are there are listed in the order of their
arrival and each with the value written last, and a value is read as it is unless it is null. -/
structure Reports (ns : Namespace) (h : NamespaceHistory) : Prop where
  distinct : ns.keys.Nodup
  listed : ns.entries = ns.keys.zip ns.values
  present : ∀ key, key ∈ ns.keys ↔ h.Present key
  order : ns.keys.Pairwise fun a b => h.arrival a < h.arrival b
  size : ∀ keys : Finset String, (∀ key, key ∈ keys ↔ h.Present key) → ns.size = keys.card
  raw : ∀ key, ns.getRaw? key = h.written? key
  read : ∀ key v, ns.get? key = some v ↔ h.written? key = some v ∧ v ≠ .null

theorem Shows.reports {ns : Namespace} {h : NamespaceHistory} (hs : ns.Shows h) : ns.Reports h where
  distinct := hs.nodup
  listed := List.zip_of_prod rfl rfl
  present := hs.present
  order := hs.order
  size keys hkeys := by
    have hsame : keys = ns.keys.toFinset := by
      ext key
      rw [hkeys, List.mem_toFinset, hs.present]
    rw [hsame, List.toFinset_card_of_nodup hs.nodup, Namespace.keys, List.length_map, Namespace.size]
  raw := hs.value
  read key v := by
    rw [get?, hs.value, Option.filter_eq_some_iff]
    simp

/-- Whatever is done to a namespace that was collected from pairs, it tells its history: at every moment it holds under each key
the value that was written last, lists its keys without repetition in the order of the writes that last made them present, and
hides only nulls. Every operation answers with what it displaces, and one on a single key leaves all other entries alone. -/
theorem history_of_run (pairs : List (String × Value)) (steps : List NamespaceStep) :
    ∃ ns replies, (ofPairs pairs).run steps = (ns, replies) ∧ replies.length = steps.length ∧
      ns.Reports (history pairs steps) ∧
      ∀ before next after, steps = before ++ next :: after → ∃ former latter reply,
        ((ofPairs pairs).run before).1 = former ∧ ((ofPairs pairs).run (before ++ [next])).1 = latter ∧
          replies[before.length]? = some reply ∧ Performs next former.entries latter.entries reply ∧
          ∀ key, keyOf next = some key → drop key latter.entries = drop key former.entries := by
  refine ⟨_, _, rfl, length_replies _ _, (shows_run (shows_ofPairs pairs) steps).reports, ?_⟩
  rintro before next after rfl
  have hs := shows_run (shows_ofPairs pairs) before
  have hperforms := performs_step hs.nodup next
  refine ⟨_, _, (((ofPairs pairs).run before).1.step next).2, rfl, ?_, ?_, hperforms, fun key => hperforms.others⟩
  · rw [run_append]
    rfl
  · rw [run_append, List.getElem?_append_right (by rw [length_replies]), length_replies, Nat.sub_self]
    rfl

end Namespace

end ClusterConfig
