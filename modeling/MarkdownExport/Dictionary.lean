import MarkdownExport.Text.Basic

/-! Dictionaries that keep the order in which keys first came. A key that is inserted again
keeps its place and takes the new value. -/
namespace MarkdownExport

abbrev Dictionary (α : Type) := List (Text × α)

namespace Dictionary
variable {α : Type}

def find? (k : Text) : Dictionary α → Option α
  | [] => none
  | (k', v) :: rest => if k' = k then some v else find? k rest

def insert (k : Text) (v : α) : Dictionary α → Dictionary α
  | [] => [(k, v)]
  | (k', v') :: rest => if k' = k then (k', v) :: rest else (k', v') :: insert k v rest

def keys (d : Dictionary α) : List Text := d.map Prod.fst

/-- `d` with the entries of `entries` inserted in their order. -/
def overlay (d : Dictionary α) (entries : List (Text × α)) : Dictionary α :=
  entries.foldl (fun d e => insert e.1 e.2 d) d

def ofList (entries : List (Text × α)) : Dictionary α := overlay [] entries

@[simp] theorem find?_nil (k : Text) : find? k ([] : Dictionary α) = none := rfl

theorem find?_insert (k k' : Text) (v : α) (d : Dictionary α) :
    find? k' (insert k v d) = if k = k' then some v else find? k' d := by
  induction d with
  | nil => simp [insert, find?]
  | cons e d ih =>
    obtain ⟨j, w⟩ := e
    by_cases hj : j = k <;> by_cases hk : k = k' <;> simp_all [insert, find?]

theorem keys_insert (k : Text) (v : α) (d : Dictionary α) :
    keys (insert k v d) = if k ∈ keys d then keys d else keys d ++ [k] := by
  induction d with
  | nil => simp [insert, keys]
  | cons e d ih =>
    obtain ⟨j, w⟩ := e
    by_cases hj : j = k
    · simp [insert, keys, hj]
    · simp only [insert, hj, if_false, keys, List.map_cons, List.mem_cons] at ih ⊢
      rw [ih]
      by_cases hk : k ∈ List.map Prod.fst d <;> simp [hk, Ne.symm hj]

theorem nodup_keys_insert (k : Text) (v : α) {d : Dictionary α} (h : (keys d).Nodup) :
    (keys (insert k v d)).Nodup := by
  rw [keys_insert]
  split
  · exact h
  · rename_i hk
    rw [List.nodup_append]
    refine ⟨h, by simp, fun a ha b hb he => hk ?_⟩
    rw [List.mem_singleton.1 hb] at he
    exact he ▸ ha

end Dictionary
end MarkdownExport
