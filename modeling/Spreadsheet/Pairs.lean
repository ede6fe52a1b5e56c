/-!
# Mappings in order of insertion

A mapping is a list of pairs with different keys. A new key goes to the end; a key that is set
again keeps its place.
-/

namespace Spreadsheet.Pairs

variable {α β : Type} [DecidableEq α]

/-- The value of a key. -/
def get? (key : α) : List (α × β) → Option β
  | [] => none
  | (k, v) :: rest => if k = key then some v else get? key rest

/-- The mapping with the value of a key replaced by a function of it, which is given `none` if the
key is new. -/
def update (key : α) (f : Option β → β) : List (α × β) → List (α × β)
  | [] => [(key, f none)]
  | (k, v) :: rest => if k = key then (k, f (some v)) :: rest else (k, v) :: update key f rest

/-- The mapping with the value of a key set. -/
def set (key : α) (value : β) (pairs : List (α × β)) : List (α × β) :=
  update key (fun _ => value) pairs

theorem get?_update (key k : α) (f : Option β → β) (pairs : List (α × β)) :
    get? k (update key f pairs) = if key = k then some (f (get? key pairs)) else get? k pairs := by
  induction pairs with
  | nil => by_cases h : key = k <;> simp [update, get?, h]
  | cons p rest ih =>
    obtain ⟨x, v⟩ := p
    by_cases hx : x = key
    · subst hx
      by_cases h : x = k <;> simp [update, get?, h]
    · by_cases h : key = k
      · subst h
        simp [update, get?, hx, ih]
      · by_cases hk : x = k
        · subst hk
          simp [update, get?, hx, h]
        · simp [update, get?, hx, h, hk, ih]

theorem get?_set (key k : α) (value : β) (pairs : List (α × β)) :
    get? k (set key value pairs) = if key = k then some value else get? k pairs :=
  get?_update key k _ pairs

/-- In a mapping each pair is found by its key. -/
theorem get?_eq_some_iff {key : α} {value : β} {pairs : List (α × β)}
    (h : (pairs.map Prod.fst).Nodup) : get? key pairs = some value ↔ (key, value) ∈ pairs := by
  induction pairs with
  | nil => simp [get?]
  | cons p rest ih =>
    obtain ⟨k, v⟩ := p
    obtain ⟨hk, hrest⟩ := List.nodup_cons.1 h
    rw [get?, List.mem_cons, Prod.mk.injEq]
    by_cases hkey : k = key
    · subst hkey
      have hnot : (k, value) ∉ rest := fun hmem => hk (List.mem_map.2 ⟨_, hmem, rfl⟩)
      simp [hnot, eq_comm]
    · simp [hkey, Ne.symm hkey, ih hrest]

theorem get?_append (key : α) (pairs pairs' : List (α × β)) :
    get? key (pairs ++ pairs') = (get? key pairs).or (get? key pairs') := by
  induction pairs with
  | nil => rfl
  | cons p rest ih =>
    rw [List.cons_append, get?, get?, ih]
    split <;> rfl

theorem mem_of_get? {key : α} {value : β} {pairs : List (α × β)} (h : get? key pairs = some value) :
    (key, value) ∈ pairs := by
  induction pairs with
  | nil => cases h
  | cons p rest ih =>
    rw [get?] at h
    split at h
    · rename_i hkey
      cases h
      exact hkey ▸ List.mem_cons_self
    · exact List.mem_cons_of_mem p (ih h)

theorem exists_get? {key : α} {pairs : List (α × β)} (h : key ∈ pairs.map Prod.fst) :
    ∃ value, get? key pairs = some value := by
  induction pairs with
  | nil => cases h
  | cons p rest ih =>
    rw [get?]
    split
    · exact ⟨p.2, rfl⟩
    · rename_i hkey
      rw [List.map_cons, List.mem_cons] at h
      exact ih (h.resolve_left (Ne.symm hkey))

/-- The values of a mapping after a key is set. -/
theorem eq_or_mem_of_mem_set {key : α} {value : β} {pairs : List (α × β)} {p : α × β}
    (h : p ∈ set key value pairs) : p.2 = value ∨ p ∈ pairs := by
  unfold set at h
  induction pairs with
  | nil => exact .inl (congrArg Prod.snd (List.mem_singleton.1 h))
  | cons q rest ih =>
    rw [update] at h
    split at h
    · rcases List.mem_cons.1 h with rfl | h
      · exact .inl rfl
      · exact .inr (List.mem_cons_of_mem q h)
    · rcases List.mem_cons.1 h with rfl | h
      · exact .inr List.mem_cons_self
      · exact (ih h).imp_right (List.mem_cons_of_mem q)

/-- A new key goes to the end. -/
theorem set_of_not_mem {key : α} {value : β} {pairs : List (α × β)}
    (h : key ∉ pairs.map Prod.fst) : set key value pairs = pairs ++ [(key, value)] := by
  unfold set
  induction pairs with
  | nil => rfl
  | cons p rest ih =>
    obtain ⟨k, v⟩ := p
    rw [List.map_cons, List.mem_cons, not_or] at h
    rw [update, if_neg (Ne.symm h.1), ih h.2]
    rfl

end Spreadsheet.Pairs
