/-
  Dictionaries: pairs of a key and a value, sorted by key, each key once.

  `Dict.insert` keeps that form and replaces the value of a key that is already there, so
  `Dict.ofPairs`, which inserts one pair after another, lets the last pair of a key win.
  Keys are compared by code points, which is also the order of their UTF-8 bytes.
-/

namespace TypeTree

universe u

/-- Pairs of a key and a value, least key first. -/
abbrev Dict (β : Type u) := List (String × β)

namespace Dict

variable {β : Type u}

/-- Sets the value of a key. -/
def insert (k : String) (v : β) : Dict β → Dict β
  | [] => [(k, v)]
  | (k', v') :: d =>
    if k < k' then (k, v) :: (k', v') :: d
    else if k = k' then (k, v) :: d
    else (k', v') :: insert k v d

/-- The value of a key. -/
def get? (d : Dict β) (k : String) : Option β :=
  d.lookup k

/-- The pairs as a dictionary; of two pairs with one key the later counts. -/
def ofPairs (ps : List (String × β)) : Dict β :=
  ps.foldl (fun d p => d.insert p.1 p.2) []

/-- Changes the value of a key, which counts as `v₀` where the key is new. -/
def update (k : String) (v₀ : β) (f : β → β) (d : Dict β) : Dict β :=
  d.insert k (f ((d.get? k).getD v₀))

/-! ## Looking up what was set -/

theorem lookup_cons (k : String) (v : β) (ps : List (String × β)) (key : String) :
    ((k, v) :: ps).lookup key = if key = k then some v else ps.lookup key := by
  rw [List.lookup_cons]
  by_cases h : key = k
  · simp [h]
  · rw [beq_eq_false_iff_ne.mpr h, if_neg h]

/-- Where no key occurs twice, a pair is found by its key. -/
theorem lookup_eq_some_iff_mem {ps : List (String × β)} (distinct : (ps.map Prod.fst).Nodup)
    {key : String} {v : β} : ps.lookup key = some v ↔ (key, v) ∈ ps := by
  induction ps with
  | nil => simp
  | cons p ps ih =>
    obtain ⟨k, w⟩ := p
    obtain ⟨hk, hrest⟩ := List.nodup_cons.mp distinct
    rw [lookup_cons, List.mem_cons, ← ih hrest]
    by_cases hkey : key = k
    · -- no later pair has the key of the first one
      subst hkey
      have hlater : ps.lookup key ≠ some v := by
        intro h
        exact hk (List.mem_map.mpr ⟨(key, v), (ih hrest).mp h, rfl⟩)
      rw [if_pos rfl]
      constructor
      · intro h
        exact .inl (by rw [Option.some.inj h])
      · rintro (h | h)
        · rw [(Prod.mk.inj h).2]
        · exact absurd h hlater
    · rw [if_neg hkey]
      constructor
      · exact .inr
      · rintro (h | h)
        · exact absurd (Prod.mk.inj h).1 hkey
        · exact h

@[simp] theorem insert_nil (k : String) (v : β) : insert k v [] = [(k, v)] := rfl

theorem insert_cons_of_lt {k k' : String} (h : k < k') (v v' : β) (d : Dict β) :
    insert k v ((k', v') :: d) = (k, v) :: (k', v') :: d := by
  rw [insert, if_pos h]

theorem insert_cons_of_not_lt {k k' : String} (h : ¬ k < k') (hne : k ≠ k') (v v' : β)
    (d : Dict β) : insert k v ((k', v') :: d) = (k', v') :: insert k v d := by
  rw [insert, if_neg h, if_neg hne]

/-- Setting a key changes what is found under that key and nothing else. -/
theorem get?_insert (k : String) (v : β) (d : Dict β) (key : String) :
    (d.insert k v).get? key = if key = k then some v else d.get? key := by
  simp only [get?]
  induction d with
  | nil => exact lookup_cons k v [] key
  | cons p d ih =>
    obtain ⟨k', v'⟩ := p
    rw [insert]
    split
    · exact lookup_cons k v _ key
    · split
      · -- the key is there already
        rename_i hk
        subst hk
        rw [lookup_cons, lookup_cons]
        split <;> rfl
      · -- the key comes later
        rename_i hk
        rw [lookup_cons, lookup_cons, ih]
        split
        · rename_i hkey
          rw [if_neg (fun h => hk (h.symm.trans hkey))]
        · rfl

/-- The last pair of a key counts. -/
theorem get?_ofPairs (ps : List (String × β)) (key : String) :
    (ofPairs ps).get? key = ps.reverse.lookup key := by
  suffices h : ∀ d : Dict β, get? (ps.foldl (fun d p => d.insert p.1 p.2) d) key =
      (ps.reverse.lookup key).or (d.get? key) by
    rw [ofPairs, h [], get?, List.lookup_nil, Option.or_none]
  induction ps with
  | nil => exact fun d => rfl
  | cons p ps ih =>
    intro d
    obtain ⟨k, v⟩ := p
    rw [List.foldl_cons, ih, get?_insert, List.reverse_cons, List.lookup_append, Option.or_assoc,
      lookup_cons]
    by_cases h : key = k
    · simp [h]
    · simp [h]

/-! ## Order of keys -/

/-- Each key is less than all keys after it. -/
def Sorted (d : Dict β) : Prop :=
  d.Pairwise fun p q => p.1 < q.1

/-- A sorted dictionary has every key once. -/
theorem Sorted.nodup {d : Dict β} (h : d.Sorted) : (d.map Prod.fst).Nodup := by
  refine List.pairwise_map.mpr (h.imp fun {p q} hlt heq => ?_)
  rw [heq] at hlt
  exact String.lt_irrefl q.1 hlt

/-- Nothing else comes in with an insertion. -/
theorem mem_insert {k : String} {v : β} {d : Dict β} {p : String × β} (h : p ∈ d.insert k v) :
    p = (k, v) ∨ p ∈ d := by
  induction d with
  | nil => exact .inl (List.mem_singleton.mp h)
  | cons q d ih =>
    rw [insert] at h
    split at h
    · exact List.mem_cons.mp h
    · split at h
      · rcases List.mem_cons.mp h with h | h
        · exact .inl h
        · exact .inr (List.mem_cons_of_mem _ h)
      · rcases List.mem_cons.mp h with h | h
        · exact .inr (h ▸ List.mem_cons_self)
        · exact (ih h).imp_right (List.mem_cons_of_mem _)

theorem mem_of_mem_ofPairs {ps : List (String × β)} {p : String × β} (h : p ∈ ofPairs ps) :
    p ∈ ps := by
  suffices hfold : ∀ d : Dict β, p ∈ ps.foldl (fun d p => d.insert p.1 p.2) d → p ∈ d ∨ p ∈ ps from
    (hfold [] h).resolve_left List.not_mem_nil
  clear h
  induction ps with
  | nil => exact fun d hp => .inl hp
  | cons q ps ih =>
    intro d hp
    rcases ih _ hp with hp | hp
    · rcases mem_insert hp with rfl | hp
      · exact .inr List.mem_cons_self
      · exact .inl hp
    · exact .inr (List.mem_cons_of_mem q hp)

/-- Setting a key keeps the order. -/
theorem Sorted.insert {d : Dict β} (h : d.Sorted) (k : String) (v : β) : (d.insert k v).Sorted := by
  induction d with
  | nil => exact List.pairwise_singleton _ _
  | cons q d ih =>
    obtain ⟨hq, hd⟩ := List.pairwise_cons.mp h
    rw [Dict.insert]
    split
    · -- before the first pair
      rename_i hlt
      refine List.pairwise_cons.mpr ⟨fun p hp => ?_, h⟩
      rcases List.mem_cons.mp hp with rfl | hp
      · exact hlt
      · exact String.lt_trans hlt (hq p hp)
    · rename_i hnlt
      split
      · -- in place of the first pair
        rename_i heq
        exact List.pairwise_cons.mpr ⟨fun p hp => heq ▸ hq p hp, hd⟩
      · -- after the first pair
        rename_i hne
        have hlt : q.1 < k := by
          refine Decidable.byContradiction fun hnlt' => hne ?_
          exact String.le_antisymm (String.not_lt.mp hnlt') (String.not_lt.mp hnlt)
        refine List.pairwise_cons.mpr ⟨fun p hp => ?_, ih hd⟩
        rcases mem_insert hp with rfl | hp
        · exact hlt
        · exact hq p hp

/-- Whatever pairs it is made of, a dictionary is sorted. -/
theorem sorted_ofPairs (ps : List (String × β)) : (ofPairs ps).Sorted := by
  suffices h : ∀ d : Dict β, d.Sorted → (ps.foldl (fun d p => d.insert p.1 p.2) d).Sorted from
    h [] .nil
  induction ps with
  | nil => exact fun d hd => hd
  | cons p ps ih => exact fun d hd => ih _ (hd.insert p.1 p.2)

/-- A greater key than all others comes last. -/
theorem insert_of_forall_lt {d : Dict β} {k : String} (h : ∀ p ∈ d, p.1 < k) (v : β) :
    d.insert k v = d ++ [(k, v)] := by
  induction d with
  | nil => rfl
  | cons q d ih =>
    obtain ⟨hq, hd⟩ := List.forall_mem_cons.mp h
    have hnlt : ¬ k < q.1 := fun hlt => String.lt_irrefl k (String.lt_trans hlt hq)
    have hne : k ≠ q.1 := fun heq => String.lt_irrefl k (heq ▸ hq)
    rw [insert_cons_of_not_lt hnlt hne, ih hd]
    rfl

/-- Pairs in order are a dictionary as they stand. -/
theorem ofPairs_of_sorted {d : Dict β} (h : d.Sorted) : ofPairs d = d := by
  suffices hfold : ∀ (ps d : Dict β), Sorted (d ++ ps) →
      ps.foldl (fun d p => d.insert p.1 p.2) d = d ++ ps from hfold d [] h
  intro ps
  induction ps with
  | nil => exact fun d _ => (List.append_nil d).symm
  | cons p ps ih =>
    intro d hd
    have hlast : ∀ q ∈ d, q.1 < p.1 := fun q hq =>
      (List.pairwise_append.mp hd).2.2 q hq p List.mem_cons_self
    rw [List.foldl_cons, insert_of_forall_lt hlast, ih _ (by simpa using hd), List.append_assoc]
    rfl

end Dict

end TypeTree
