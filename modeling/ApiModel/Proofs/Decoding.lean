import ApiModel.Json.Decode

/-!
# What is read of a value

What every map and every record that is read is like, whatever is read in it.
-/

namespace ApiModel.Json.Decoder

/-- The members of a map are read in ascending order. -/
theorem ascending_map {α : Type} {read : Decoder α} {levels : Nat} {value : Value}
    {entries : List (String × α)} (h : map read levels value = some entries) :
    Index.Ascending entries := by
  unfold map at h
  split at h
  · obtain ⟨members, -, h⟩ := Option.bind_eq_some_iff.1 h
    obtain rfl := Option.some.inj h
    exact List.foldlRecOn members _ List.Pairwise.nil fun _ hbefore entry _ =>
      Index.ascending_insertEntry entry.1 entry.2 hbefore
  · cases h

/-- An item that comes out of attempts on all items of a list comes out of one of them. -/
theorem exists_of_mem_mapM {α β : Type} {f : α → Option β} {xs : List α} {ys : List β}
    (h : xs.mapM f = some ys) {y : β} (hy : y ∈ ys) : ∃ x ∈ xs, f x = some y := by
  induction xs generalizing ys with
  | nil =>
    obtain rfl := Option.some.inj h
    exact absurd hy List.not_mem_nil
  | cons x rest ih =>
    rw [List.mapM_cons] at h
    obtain ⟨first, hfirst, h⟩ := Option.bind_eq_some_iff.1 h
    obtain ⟨others, hothers, h⟩ := Option.bind_eq_some_iff.1 h
    obtain rfl := Option.some.inj h
    rcases List.mem_cons.1 hy with rfl | hy
    · exact ⟨x, List.mem_cons_self, hfirst⟩
    · obtain ⟨z, hz, hread⟩ := ih hothers hy
      exact ⟨z, List.mem_cons_of_mem x hz, hread⟩

/-- Every value of a map that is read is read. -/
theorem exists_of_mem_map {α : Type} {read : Decoder α} {levels : Nat} {value : Value}
    {entries : List (String × α)} (h : map read levels value = some entries)
    {entry : String × α} (hentry : entry ∈ entries) :
    ∃ rest inner, read rest inner = some entry.2 := by
  unfold map at h
  split at h
  · obtain ⟨members, hmembers, h⟩ := Option.bind_eq_some_iff.1 h
    obtain rfl := Option.some.inj h
    have hgiven : ∀ e ∈ members.foldl (fun all e => Index.insertEntry e.1 e.2 all) [],
        e ∈ members := by
      refine List.foldlRecOn (motive := fun all => ∀ e ∈ all, e ∈ members) members _
        (fun e he => absurd he List.not_mem_nil) fun all hall entry hentry e he => ?_
      rcases Index.mem_of_mem_insertEntry he with rfl | he
      · exact hentry
      · exact hall e he
    obtain ⟨⟨key, inner⟩, -, hread⟩ := exists_of_mem_mapM hmembers (hgiven entry hentry)
    obtain ⟨name, -, hread⟩ := Option.bind_eq_some_iff.1 hread
    obtain ⟨x, hx, hread⟩ := Option.bind_eq_some_iff.1 hread
    obtain rfl := Option.some.inj hread
    exact ⟨_, inner, hx⟩
  · cases h

/-- A member of a record is its default, or it is read. -/
theorem memberOr_cases {α : Type} {given : List (String × Value)} {levels : Nat} {key : String}
    {default x : α} {read : Decoder α}
    (h : memberOr given levels key default read = some x) :
    x = default ∨ ∃ value, read levels value = some x := by
  unfold memberOr at h
  split at h
  · exact .inr ⟨_, h⟩
  · exact .inl (Option.some.inj h).symm

/-- The entries of a member that is read as a map ascend, and each value is read. -/
theorem ascending_memberOr {α : Type} {given : List (String × Value)} {levels : Nat}
    {key : String} {read : Decoder α} {entries : List (String × α)}
    (h : memberOr given levels key [] (map read) = some entries) :
    Index.Ascending entries ∧ ∀ entry ∈ entries, ∃ rest value, read rest value =
      some entry.2 := by
  rcases memberOr_cases h with rfl | ⟨value, hvalue⟩
  · exact ⟨List.Pairwise.nil, fun entry hentry => absurd hentry List.not_mem_nil⟩
  · exact ⟨ascending_map hvalue, fun entry hentry => exists_of_mem_map hvalue hentry⟩

/-- A record that is read is made of some members of the value. -/
theorem of_record {α : Type} {names : List String}
    {read : List (String × Value) → Nat → Option α} {levels : Nat} {value : Value} {x : α}
    (h : record names read levels value = some x) :
    ∃ given rest, read given rest = some x := by
  cases levels with
  | zero => cases h
  | succ levels =>
    obtain ⟨given, -, h⟩ := Option.bind_eq_some_iff.1 h
    dsimp only at h
    split at h
    · exact ⟨given, levels, h⟩
    · cases h

end ApiModel.Json.Decoder
