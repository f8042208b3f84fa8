import LabLang.Proofs.Readers
import LabLang.Proofs.Repetitions
import LabLang.Table

/-! # Tables

Writing a key that is new appends it, and hence a list of pairs with distinct keys is its own table.  What is found in
a table is one of its entries, and every entry has been written.  After several pairs with distinct keys have been
written, the new keys stand behind the others (`keys_putAll`), and what is found is one of the pairs or what was there
before (`get?_putAll`).  Of pairs that repeat their keys, the last value of a key is found and the keys stand in the order
of their first occurrences (`get?_ofPairs`, `keys_ofPairs`).  Reading the values of a table that were written value by
value gives a table of the same keys. -/

namespace LabLang.Table

variable {α : Type}

theorem put_of_notMem {t : Table α} {key : String} (value : α) (h : key ∉ keys t) :
    t.put key value = t ++ [(key, value)] := by
  induction t with
  | nil => rfl
  | cons p t ih =>
      obtain ⟨k, v⟩ := p
      have hk : k ≠ key := fun hk => h (hk ▸ List.mem_cons_self ..)
      have ht : key ∉ keys t := fun ht => h (List.mem_cons_of_mem k ht)
      rw [put, if_neg hk, ih ht, List.cons_append]

theorem putAll_of_nodup {t pairs : Table α} (h : (keys t ++ keys pairs).Nodup) : t.putAll pairs = t ++ pairs := by
  induction pairs generalizing t with
  | nil => exact (List.append_nil t).symm
  | cons p pairs ih =>
      have hmiddle : keys t ++ keys (p :: pairs) = (keys t ++ [p.1]) ++ keys pairs := by simp [keys]
      have hkeys : keys (t ++ [p]) = keys t ++ [p.1] := by simp [keys]
      have hnew : p.1 ∉ keys t := fun hmem =>
        (List.nodup_append.mp h).2.2 p.1 hmem p.1 (List.mem_cons_self ..) rfl
      have hput : t.putAll (p :: pairs) = putAll (t ++ [p]) pairs := by
        unfold putAll
        rw [List.foldl_cons, put_of_notMem p.2 hnew]
      rw [hput, ih (by rwa [hkeys, ← hmiddle]), List.append_assoc, List.singleton_append]

/-- A list of pairs with distinct keys is a table. -/
theorem ofPairs_of_nodup {pairs : Table α} (h : (keys pairs).Nodup) : ofPairs pairs = pairs :=
  putAll_of_nodup (t := []) h

/-! ### Entries -/

/-- A key is found exactly if it is one of the keys. -/
theorem get?_eq_none_iff {t : Table α} {key : String} : t.get? key = none ↔ key ∉ keys t := by
  induction t with
  | nil => simp [get?, keys]
  | cons p t ih =>
      obtain ⟨k, v⟩ := p
      have hkeys : keys ((k, v) :: t) = k :: keys t := rfl
      rw [hkeys, List.mem_cons, not_or, ← ih, get?]
      by_cases hk : k = key
      · simp [hk]
      · simp [hk, Ne.symm hk]

theorem has_eq_false_iff {t : Table α} {key : String} : t.has key = false ↔ key ∉ keys t := by
  rw [has, Option.isSome_eq_false_iff, Option.isNone_iff_eq_none, get?_eq_none_iff]

theorem mem_of_get? {t : Table α} {key : String} {value : α} (h : t.get? key = some value) : (key, value) ∈ t := by
  induction t with
  | nil => cases h
  | cons p t ih =>
      obtain ⟨k, v⟩ := p
      unfold get? at h
      split at h
      case isTrue hk =>
        cases h
        rw [hk]
        exact List.mem_cons_self
      case isFalse => exact List.mem_cons_of_mem _ (ih h)

/-- Every key is found. -/
theorem exists_get?_of_mem {t : Table α} {entry : String × α} (h : entry ∈ t) : ∃ value, t.get? entry.1 = some value := by
  refine Option.ne_none_iff_exists'.mp fun hnone => ?_
  exact get?_eq_none_iff.mp hnone (List.mem_map_of_mem h)

/-- With distinct keys every entry is found under its key. -/
theorem get?_of_mem {t : Table α} (distinct : t.keys.Nodup) {entry : String × α} (h : entry ∈ t) :
    t.get? entry.1 = some entry.2 := by
  induction t with
  | nil => cases h
  | cons p t ih =>
      obtain ⟨k, v⟩ := p
      obtain ⟨hnew, hrest⟩ := List.nodup_cons.mp distinct
      unfold get?
      rcases List.mem_cons.mp h with rfl | hmem
      · exact if_pos rfl
      · rw [if_neg, ih hrest hmem]
        rintro rfl
        exact hnew (List.mem_map.mpr ⟨entry, hmem, rfl⟩)

/-- Writing brings in no entry but the one that is written. -/
theorem mem_of_mem_put {t : Table α} {key : String} {value : α} {entry : String × α}
    (h : entry ∈ t.put key value) : entry ∈ t ∨ entry = (key, value) := by
  induction t with
  | nil => exact .inr (List.mem_singleton.mp h)
  | cons p t ih =>
      obtain ⟨k, v⟩ := p
      unfold put at h
      split at h
      all_goals
        rename_i hk
        rcases List.mem_cons.mp h with rfl | ht
      · exact .inr (by rw [hk])
      · exact .inl (List.mem_cons_of_mem _ ht)
      · exact .inl List.mem_cons_self
      · exact (ih ht).imp (List.mem_cons_of_mem _) id

theorem mem_of_mem_putAll {t pairs : Table α} {entry : String × α} (h : entry ∈ t.putAll pairs) :
    entry ∈ t ∨ entry ∈ pairs := by
  induction pairs generalizing t with
  | nil => exact .inl h
  | cons p pairs ih =>
      rcases ih (t := t.put p.1 p.2) h with hput | hpairs
      · rcases mem_of_mem_put hput with ht | rfl
        · exact .inl ht
        · exact .inr List.mem_cons_self
      · exact .inr (List.mem_cons_of_mem p hpairs)

/-! ### Writing several entries -/

theorem putAll_cons (t : Table α) (p : String × α) (pairs : Table α) :
    t.putAll (p :: pairs) = (t.put p.1 p.2).putAll pairs := rfl

theorem putAll_singleton (t : Table α) (p : String × α) : t.putAll [p] = t.put p.1 p.2 := rfl

/-- A key that is present keeps its place, and a new one comes behind the others. -/
theorem keys_put (t : Table α) (key : String) (value : α) :
    keys (t.put key value) = if t.has key then keys t else keys t ++ [key] := by
  cases hhas : t.has key with
  | false =>
      rw [put_of_notMem value (has_eq_false_iff.mp hhas)]
      exact List.map_append
  | true =>
      rw [if_pos rfl]
      induction t with
      | nil => cases hhas
      | cons p t ih =>
          obtain ⟨k, v⟩ := p
          unfold put
          by_cases hk : k = key
          · rw [if_pos hk]
            rfl
          · rw [if_neg hk]
            rw [has, get?, if_neg hk] at hhas
            exact congrArg (k :: ·) (ih hhas)

/-- Only the last of several values that are written to a key counts. -/
theorem put_put (t : Table α) (key : String) (first last : α) : (t.put key first).put key last = t.put key last := by
  induction t with
  | nil => simp [put]
  | cons p t ih => by_cases h : p.1 = key <;> simp [put, h, ih]

theorem has_put_of_ne (t : Table α) {key other : String} (value : α) (h : key ≠ other) :
    (t.put key value).has other = t.has other := by
  unfold has
  rw [get?_put_of_ne t value h]

/-- Of several entries with distinct keys, those with new keys come behind the others in the order in which they are
written. -/
theorem keys_putAll {pairs : Table α} (distinct : (keys pairs).Nodup) (t : Table α) :
    keys (t.putAll pairs) = keys t ++ keys (pairs.filter fun entry => !t.has entry.1) := by
  induction pairs generalizing t with
  | nil => exact (List.append_nil _).symm
  | cons p pairs ih =>
      obtain ⟨hnew, hrest⟩ := List.nodup_cons.mp distinct
      have hsame : (pairs.filter fun entry => !(t.put p.1 p.2).has entry.1) = pairs.filter fun entry => !t.has entry.1 :=
        List.filter_congr fun entry hentry => by
          have hne : p.1 ≠ entry.1 := fun hp => hnew (List.mem_map.mpr ⟨entry, hentry, hp.symm⟩)
          rw [has_put_of_ne t p.2 hne]
      rw [putAll_cons, ih hrest, hsame, keys_put]
      cases hhas : t.has p.1 with
      | true => rw [List.filter_cons_of_neg (by simp [hhas]), if_pos rfl]
      | false =>
          rw [List.filter_cons_of_pos (by simp [hhas]), if_neg Bool.false_ne_true, List.append_assoc]
          rfl

/-- What is found after several entries with distinct keys have been written: one of them, or what was there before. -/
theorem get?_putAll {pairs : Table α} (distinct : (keys pairs).Nodup) (t : Table α) (key : String) :
    (t.putAll pairs).get? key = (pairs.get? key).or (t.get? key) := by
  induction pairs generalizing t with
  | nil => rfl
  | cons p pairs ih =>
      obtain ⟨k, v⟩ := p
      obtain ⟨hnew, hrest⟩ := List.nodup_cons.mp distinct
      rw [putAll_cons, ih hrest]
      by_cases hk : k = key
      · subst hk
        have hnone : get? pairs k = none := get?_eq_none_iff.mpr hnew
        rw [hnone, Option.none_or, get?_put_self, get?, if_pos rfl, Option.some_or]
      · rw [get?_put_of_ne t v hk, get?, if_neg hk]

/-! ### Pairs in the order of writing -/

/-- The last of the values that stand beside a key. -/
def lastOf (key : String) (pairs : List (String × α)) : Option α :=
  ((pairs.filter fun p => p.1 = key).getLast?).map (·.2)

/-- Each of the keys once, where it stands first. -/
def firstOf (pairs : List (String × α)) : List String := (pairs.map (·.1)).eraseDups

theorem lastOf_concat (key : String) (pairs : List (String × α)) (p : String × α) :
    lastOf key (pairs ++ [p]) = if p.1 = key then some p.2 else lastOf key pairs := by
  unfold lastOf
  rw [List.filter_append]
  by_cases h : p.1 = key
  · rw [List.filter_cons_of_pos (by simpa using h), List.filter_nil, List.getLast?_concat, if_pos h, Option.map_some]
  · rw [List.filter_cons_of_neg (by simpa using h), List.filter_nil, List.append_nil, if_neg h]

theorem ofPairs_append (pairs more : List (String × α)) : ofPairs (pairs ++ more) = (ofPairs pairs).putAll more :=
  List.foldl_append

/-- Of several values that are written to a key, the last one is found. -/
theorem get?_ofPairs (pairs : List (String × α)) (key : String) : (ofPairs pairs).get? key = lastOf key pairs := by
  induction pairs using List.reverseRecOn with
  | nil => rfl
  | append_singleton pairs p ih =>
      rw [ofPairs_append, putAll_singleton, lastOf_concat, ← ih]
      by_cases h : p.1 = key
      · rw [if_pos h, ← h, get?_put_self]
      · rw [if_neg h, get?_put_of_ne _ _ h]

/-- The keys stand in the order in which they were written first. -/
theorem keys_ofPairs (pairs : List (String × α)) : keys (ofPairs pairs) = firstOf pairs := by
  induction pairs using List.reverseRecOn with
  | nil => rfl
  | append_singleton pairs p ih =>
      have hmem : (ofPairs pairs).has p.1 = true ↔ p.1 ∈ pairs.map (·.1) := by
        rw [← List.mem_eraseDups, ← firstOf, ← ih, ← not_iff_not, Bool.not_eq_true, has_eq_false_iff]
      rw [ofPairs_append, putAll_singleton, keys_put, ih, firstOf, firstOf, List.map_append, List.map_singleton,
        eraseDups_concat]
      exact if_congr hmem rfl rfl

/-! ### Other arrangements -/

theorem get?_append (t u : Table α) (key : String) : get? (t ++ u) key = (t.get? key).or (u.get? key) := by
  induction t with
  | nil => rfl
  | cons p t ih =>
      obtain ⟨k, v⟩ := p
      rw [List.cons_append, get?, get?]
      split
      · rfl
      · exact ih

/-- A key that is kept is found as before. -/
theorem get?_filter (keep : String → Bool) (t : Table α) {key : String} (h : keep key = true) :
    get? (t.filter fun entry => keep entry.1) key = t.get? key := by
  induction t with
  | nil => rfl
  | cons p t ih =>
      obtain ⟨k, v⟩ := p
      by_cases hk : k = key
      · subst hk
        rw [List.filter_cons, if_pos h, get?, get?, if_pos rfl, if_pos rfl]
      · rw [get?, if_neg hk, ← ih, List.filter_cons]
        split
        · rw [get?, if_neg hk]
        · rfl

/-- With distinct keys the order of the entries does not matter. -/
theorem get?_perm {t u : Table α} (h : t.Perm u) (distinct : t.keys.Nodup) (key : String) : t.get? key = u.get? key := by
  have hkeys : t.keys.Perm u.keys := h.map Prod.fst
  cases ht : t.get? key with
  | none =>
      rw [get?_eq_none_iff] at ht
      exact (get?_eq_none_iff.mpr fun hu => ht (hkeys.mem_iff.mpr hu)).symm
  | some value => exact (get?_of_mem (hkeys.nodup_iff.mp distinct) (h.mem_iff.mp (mem_of_get? ht))).symm

/-! ### Choosing values -/

section choosing

variable {β : Type} (f : α → Option β)

/-- The entries whose values are kept, with what is kept of them. -/
def chooseValues (t : Table α) : Table β := t.filterMap fun entry => (f entry.2).map fun value => (entry.1, value)

variable {f}

theorem chooseValues_cons_of_none {entry : String × α} (h : f entry.2 = none) (t : Table α) :
    chooseValues f (entry :: t) = chooseValues f t :=
  List.filterMap_cons_none (by rw [h]; rfl)

theorem chooseValues_cons_of_some {entry : String × α} {value : β} (h : f entry.2 = some value) (t : Table α) :
    chooseValues f (entry :: t) = (entry.1, value) :: chooseValues f t :=
  List.filterMap_cons_some (by rw [h]; rfl)

variable (f)

theorem get?_chooseValues {t : Table α} (distinct : (keys t).Nodup) (key : String) :
    (chooseValues f t).get? key = (t.get? key).bind f := by
  induction t with
  | nil => rfl
  | cons p t ih =>
      obtain ⟨k, v⟩ := p
      obtain ⟨hnew, hrest⟩ := List.nodup_cons.mp distinct
      have ih := ih hrest
      rw [get?]
      by_cases hk : k = key
      · subst hk
        have hnone : get? t k = none := get?_eq_none_iff.mpr hnew
        rw [if_pos rfl, Option.bind_some]
        cases hv : f v with
        | none => rw [chooseValues_cons_of_none hv, ih, hnone, Option.bind_none]
        | some value => rw [chooseValues_cons_of_some hv, get?, if_pos rfl]
      · rw [if_neg hk]
        cases hv : f v with
        | none => rw [chooseValues_cons_of_none hv, ih]
        | some value => rw [chooseValues_cons_of_some hv, get?, if_neg hk, ih]

theorem keys_filter_chooseValues (p : String → Bool) (t : Table α) :
    keys ((chooseValues f t).filter fun entry => p entry.1) =
      keys (t.filter fun entry => (f entry.2).isSome && p entry.1) := by
  induction t with
  | nil => rfl
  | cons entry t ih =>
      cases hv : f entry.2 with
      | none => rw [chooseValues_cons_of_none hv, List.filter_cons_of_neg (by simp [hv]), ih]
      | some value =>
          rw [chooseValues_cons_of_some hv]
          cases hp : p entry.1 with
          | false => rw [List.filter_cons_of_neg (by simp [hp]), List.filter_cons_of_neg (by simp [hp]), ih]
          | true =>
              rw [List.filter_cons_of_pos (by simp [hp]), List.filter_cons_of_pos (by simp [hv, hp])]
              exact congrArg (entry.1 :: ·) ih

theorem nodup_chooseValues {t : Table α} (distinct : (keys t).Nodup) : (keys (chooseValues f t)).Nodup := by
  have hkeys := keys_filter_chooseValues f (fun _ => true) t
  rw [List.filter_true] at hkeys
  rw [hkeys]
  exact distinct.sublist (List.filter_sublist.map _)

end choosing

/-! ### Values -/

/-- What is read after writing, value by value. -/
theorem readValues_mapValues {ε β γ : Type} {write : α → β} {read : β → Except ε γ} {g : α → γ}
    (h : ∀ a, read (write a) = .ok (g a)) (t : Table α) :
    readValues read (t.mapValues write) = .ok (t.mapValues g) := by
  unfold readValues mapValues
  rw [List.mapM_map]
  refine mapM_eq_ok fun entry _ => ?_
  rw [Function.comp_apply, h]
  rfl

section reading

variable {ε β : Type} {read : α → Except ε β}

/-- A table that has been read has the keys of the other one, and its values as they are read. -/
theorem readValues_eq_ok_iff {t : Table α} {t' : Table β} :
    readValues read t = .ok t' ↔ List.Forall₂ (fun p q => p.1 = q.1 ∧ read p.2 = .ok q.2) t t' := by
  unfold readValues
  induction t generalizing t' with
  | nil =>
      rw [List.forall₂_nil_left_iff]
      exact ⟨fun h => by cases h; rfl, fun h => by rw [h]; rfl⟩
  | cons entry t ih =>
      rw [List.mapM_cons]
      constructor
      · intro h
        obtain ⟨q, hq, h⟩ := ok_of_bind h
        obtain ⟨rest, hrest, h⟩ := ok_of_bind h
        obtain ⟨value, hvalue, rfl⟩ := ok_of_map hq
        cases h
        exact .cons ⟨rfl, hvalue⟩ (ih.mp hrest)
      · intro h
        cases h with
        | @cons _ q _ rest hentry hrest =>
            obtain ⟨key, value⟩ := q
            obtain ⟨rfl, hvalue⟩ := hentry
            rw [hvalue, ih.mpr hrest]
            rfl

/-- Every value of a table that has been read is found in the other one under its key. -/
theorem exists_mem_of_readValues {t : Table α} {t' : Table β} (h : readValues read t = .ok t') {entry : String × α}
    (hentry : entry ∈ t) : ∃ value, read entry.2 = .ok value ∧ (entry.1, value) ∈ t' := by
  replace h := readValues_eq_ok_iff.mp h
  induction h with
  | nil => cases hentry
  | @cons p q t t' hpq _ ih =>
      obtain ⟨key, value⟩ := q
      rcases List.mem_cons.mp hentry with rfl | hmem
      · obtain ⟨rfl, hvalue⟩ := hpq
        exact ⟨value, hvalue, List.mem_cons_self⟩
      · obtain ⟨value', hvalue, hmem'⟩ := ih hmem
        exact ⟨value', hvalue, List.mem_cons_of_mem _ hmem'⟩

/-- Every value that has been read was found in the other table under the same key. -/
theorem exists_of_mem_readValues {t : Table α} {t' : Table β} (h : readValues read t = .ok t') {entry : String × β}
    (hentry : entry ∈ t') : ∃ value, (entry.1, value) ∈ t ∧ read value = .ok entry.2 := by
  replace h := readValues_eq_ok_iff.mp h
  induction h with
  | nil => cases hentry
  | @cons p q t t' hpq _ ih =>
      obtain ⟨key, value⟩ := p
      rcases List.mem_cons.mp hentry with rfl | hmem
      · obtain ⟨rfl, hvalue⟩ := hpq
        exact ⟨value, List.mem_cons_self, hvalue⟩
      · obtain ⟨value', hmem', hvalue⟩ := ih hmem
        exact ⟨value', List.mem_cons_of_mem _ hmem', hvalue⟩

/-- A table cannot be read because of one of its values. -/
theorem error_of_readValues {t : Table α} {e : ε} (h : readValues read t = .error e) :
    ∃ entry ∈ t, read entry.2 = .error e := by
  obtain ⟨entry, hmem, herror⟩ := error_of_mapM h
  exact ⟨entry, hmem, error_of_map herror⟩

end reading

theorem get?_mapValues {β : Type} (f : α → β) (t : Table α) (key : String) :
    (mapValues f t).get? key = (t.get? key).map f := by
  induction t with
  | nil => rfl
  | cons p t ih =>
      obtain ⟨k, v⟩ := p
      show get? ((k, f v) :: mapValues f t) key = _
      unfold get?
      split
      · rfl
      · exact ih

theorem keys_mapValues {β : Type} (f : α → β) (t : Table α) : keys (mapValues f t) = keys t := List.map_map

theorem mapValues_id (t : Table α) : t.mapValues id = t := List.map_id t

end LabLang.Table
