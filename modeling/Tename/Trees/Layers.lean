import Mathlib.Data.List.Chain
import Mathlib.Data.List.Induction
import Mathlib.Data.List.Nodup

/-!
# Layered trees of mappings

Trees of mappings with values at their leaves, and a merge that lays one over another:
mappings are merged key by key, and everything else is replaced whole. The mappings of a graph
may hold one another, and themselves, so that a tree may be without end. The merge goes as many
levels down as it is given, and fails where two mappings go on below.

What a tree says about a path of keys is a `Decision`. A tree decides a path that leads
to something in it, and one that a value stands across; it is silent on a path on which a
mapping lacks a key. In a stack of trees the topmost one that is not silent decides.
-/

/-- Mappings that may hold one another: what is under a key is a value or one of them. -/
abbrev KeyGraph (κ α : Type) := Nat → List (κ × (α ⊕ Nat))

/-- A tree of mappings. -/
inductive KeyTree (κ α : Type) where
  | leaf (value : α)
  | node (fields : List (κ × KeyTree κ α))
  /-- A mapping of a graph. -/
  | shared (graph : KeyGraph κ α) (root : Nat)

namespace KeyTree

variable {κ α : Type} [DecidableEq κ]

/-- A mapping, as a list of its fields. -/
abbrev Fields (κ α : Type) := List (κ × KeyTree κ α)

/-- What is under a key of a graph's mapping. -/
def ofGraph (graph : KeyGraph κ α) : α ⊕ Nat → KeyTree κ α
  | .inl value => .leaf value
  | .inr root => .shared graph root

/-- The fields of a graph's mapping. -/
def graphFields (graph : KeyGraph κ α) (root : Nat) : Fields κ α :=
  (graph root).map fun field => (field.1, ofGraph graph field.2)

/-- The value, or the fields of the mapping. -/
def view : KeyTree κ α → α ⊕ Fields κ α
  | .leaf value => .inl value
  | .node fields => .inr fields
  | .shared graph root => .inr (graphFields graph root)

/-- The value under a key. -/
def get? (fields : Fields κ α) (key : κ) : Option (KeyTree κ α) :=
  fields.lookup key

/-- The mapping with a value under a key; a key that is there keeps its place. -/
def put (fields : Fields κ α) (key : κ) (value : KeyTree κ α) : Fields κ α :=
  if fields.any (·.1 = key) then
    fields.map fun field => if field.1 = key then (key, value) else field
  else fields ++ [(key, value)]

/-- The graph whose mapping `root` has lost a key. -/
def eraseIn (graph : KeyGraph κ α) (root : Nat) (key : κ) : KeyGraph κ α := fun id =>
  if id = root then (graph id).filter (·.1 ≠ key) else graph id

/-- A value over what there is below it, for a way of merging two mappings. -/
def mergeOver (merge : Fields κ α → Fields κ α → Option (Fields κ α))
    (lower : Option (KeyTree κ α)) (value : KeyTree κ α) : Option (KeyTree κ α) :=
  match value.view, lower.map view with
  | .inr upper, some (.inr lower) => (merge lower upper).map node
  | _, _ => some value

/-- The fields of an upper mapping over those of a lower one, one by one, for a number of levels. -/
def mergeFields : Nat → Fields κ α → Fields κ α → Option (Fields κ α)
  | 0, _, _ => none
  | depth + 1, lower, upper => upper.foldlM (fun merged field =>
      (mergeOver (mergeFields depth) (get? merged field.1) field.2).map (put merged field.1)) lower

/-- What is at a path: a value or a mapping. -/
inductive Held (α : Type) where
  | value (value : α)
  | mapping
  deriving DecidableEq

/-- What a tree says about a path. -/
inductive Decision (α : Type) where
  | silent
  | holds (held : Held α)
  /-- A value stands across the path, so there is nothing at its end. -/
  | blocked
  deriving DecidableEq

/-- What there is at a path that has been decided. -/
def Decision.held? : Decision α → Option (Held α)
  | .holds held => some held
  | _ => none

/-- What two trees say, one over the other. -/
def Decision.over : Decision α → Decision α → Decision α
  | .silent, lower => lower
  | upper, _ => upper

/-- What a tree says about a path of keys. -/
def decision (tree : KeyTree κ α) : List κ → Decision α
  | [] =>
      match tree.view with
      | .inl value => .holds (.value value)
      | .inr _ => .holds .mapping
  | key :: path =>
      match tree.view with
      | .inl _ => .blocked
      | .inr fields =>
          match get? fields key with
          | none => .silent
          | some tree => tree.decision path

/-- What a tree has at a path. -/
def held? (tree : KeyTree κ α) (path : List κ) : Option (Held α) :=
  (tree.decision path).held?

/-- The fields of the mapping at a path. -/
def fieldsAt (fields : Fields κ α) : List κ → Option (Fields κ α)
  | [] => some fields
  | key :: path =>
      match (get? fields key).map view with
      | some (.inr fields) => fieldsAt fields path
      | _ => none

/-- No mapping in the tree has a key twice. -/
def WellKeyed (fields : Fields κ α) : Prop :=
  ∀ path mapping, fieldsAt fields path = some mapping → (mapping.map Prod.fst).Nodup

/-- What a stack of trees, from its top on, has at a path: the first tree that is not silent
decides. -/
def nearest? (trees : List (KeyTree κ α)) (path : List κ) : Option (Held α) :=
  (trees.foldr (fun tree below => (decision tree path).over below) Decision.silent).held?

/-- The merge of a stack of mappings, from its top on, over a bottom. The merge at the top may go
down a number of levels, each one below it one level less. -/
def mergeStack : Nat → List (Fields κ α) → Fields κ α → Option (Fields κ α)
  | _, [], bottom => some bottom
  | depth, upper :: uppers, bottom =>
      (mergeStack (depth - 1) uppers bottom).bind fun lower => mergeFields depth lower upper

section Fields

variable {fields lower upper merged : Fields κ α} {key key' : κ} {value : KeyTree κ α}

theorem get?_cons (field : κ × KeyTree κ α) (fields : Fields κ α) (key : κ) :
    get? (field :: fields) key = if field.1 = key then some field.2 else get? fields key := by
  obtain ⟨k, v⟩ := field
  rw [get?, List.lookup_cons]
  by_cases same : k = key
  · rw [if_pos same, same, beq_self_eq_true]
  · rw [if_neg same, beq_eq_false_iff_ne.mpr (Ne.symm same)]
    rfl

theorem get?_append (fields fields' : Fields κ α) (key : κ) :
    get? (fields ++ fields') key = (get? fields key).or (get? fields' key) := by
  induction fields with
  | nil => rfl
  | cons field fields ih =>
      rw [List.cons_append, get?_cons, get?_cons, ih]
      split
      · rfl
      · rfl

theorem get?_eq_none_iff : get? fields key = none ↔ key ∉ fields.map Prod.fst := by
  induction fields with
  | nil => exact iff_of_true rfl (by simp)
  | cons field fields ih =>
      rw [get?_cons, List.map_cons, List.mem_cons, not_or, ← ih]
      by_cases same : field.1 = key
      · simp [same]
      · simp [same, Ne.symm same]

theorem get?_map_put (fields : Fields κ α) (key key' : κ) (value : KeyTree κ α) :
    get? (fields.map fun field => if field.1 = key then (key, value) else field) key' =
      if key' = key then (get? fields key).map fun _ => value else get? fields key' := by
  induction fields with
  | nil =>
      split
      · rfl
      · rfl
  | cons field fields ih =>
      rw [List.map_cons, get?_cons, get?_cons, get?_cons, ih]
      by_cases same : field.1 = key
      · by_cases here : key' = key
        · simp [same, here]
        · simp [same, here, Ne.symm here]
      · by_cases here : key' = key
        · simp [same, here]
        · simp [same, here]

/-- A value that has been put is found again, and the others are as they were. -/
theorem get?_put (fields : Fields κ α) (key key' : κ) (value : KeyTree κ α) :
    get? (put fields key value) key' = if key' = key then some value else get? fields key' := by
  unfold put
  by_cases present : fields.any (·.1 = key) = true
  · rw [if_pos present, get?_map_put]
    have some' : get? fields key ≠ none := by
      intro none'
      obtain ⟨field, mem, same⟩ := List.any_eq_true.mp present
      refine get?_eq_none_iff.mp none' (List.mem_map.mpr ⟨field, mem, ?_⟩)
      exact of_decide_eq_true same
    obtain ⟨old, given⟩ := Option.ne_none_iff_exists'.mp some'
    rw [given]
    rfl
  · rw [if_neg present, get?_append, get?_cons]
    have none' : get? fields key = none := by
      refine get?_eq_none_iff.mpr fun mem => present ?_
      obtain ⟨field, mem, same⟩ := List.mem_map.mp mem
      exact List.any_eq_true.mpr ⟨field, mem, decide_eq_true same⟩
    by_cases here : key' = key
    · simp [here, none']
    · simp [here, Ne.symm here, get?]

/-- The levels that are left, for one field after the other. -/
theorem mergeFields_cons (depth : Nat) (lower : Fields κ α) (field : κ × KeyTree κ α)
    (rest : Fields κ α) : mergeFields (depth + 1) lower (field :: rest) =
      (mergeOver (mergeFields depth) (get? lower field.1) field.2).bind fun value =>
        mergeFields (depth + 1) (put lower field.1 value) rest := by
  rw [mergeFields, List.foldlM_cons]
  cases mergeOver (mergeFields depth) (get? lower field.1) field.2 with
  | none => rfl
  | some value => rfl

/-- A key of the upper mapping has its value over the one below, the others are the lower
mapping's. -/
theorem get?_mergeFields {depth : Nat} (keyed : (upper.map Prod.fst).Nodup)
    (done : mergeFields (depth + 1) lower upper = some merged) (key : κ) :
    get? merged key =
      match get? upper key with
      | none => get? lower key
      | some value => mergeOver (mergeFields depth) (get? lower key) value := by
  induction upper generalizing lower with
  | nil =>
      obtain rfl := Option.some.inj done
      rfl
  | cons field rest ih =>
      rw [List.map_cons, List.nodup_cons] at keyed
      rw [mergeFields_cons] at done
      obtain ⟨value, over', done⟩ := Option.bind_eq_some_iff.mp done
      rw [ih keyed.2 done, get?_put, get?_cons]
      by_cases here : field.1 = key
      · subst here
        rw [get?_eq_none_iff.mpr keyed.1, if_pos rfl, if_pos rfl]
        exact over'.symm
      · rw [if_neg here, if_neg (Ne.symm here)]

/-- A merge fails at one of the keys of the upper mapping. -/
theorem mergeFields_succ_eq_none {depth : Nat} (keyed : (upper.map Prod.fst).Nodup) :
    mergeFields (depth + 1) lower upper = none ↔ ∃ key value, get? upper key = some value ∧
      mergeOver (mergeFields depth) (get? lower key) value = none := by
  induction upper generalizing lower with
  | nil => exact iff_of_false nofun (by rintro ⟨key, value, impossible, -⟩; cases impossible)
  | cons field rest ih =>
      rw [List.map_cons, List.nodup_cons] at keyed
      rw [mergeFields_cons]
      have absent : get? rest field.1 = none := get?_eq_none_iff.mpr keyed.1
      cases over' : mergeOver (mergeFields depth) (get? lower field.1) field.2 with
      | none => exact iff_of_true rfl ⟨field.1, field.2, by rw [get?_cons, if_pos rfl], over'⟩
      | some value =>
          rw [Option.bind_some, ih keyed.2]
          constructor
          · rintro ⟨key, value', found, fails⟩
            have other : key ≠ field.1 := by
              rintro rfl
              rw [absent] at found
              cases found
            rw [get?_put, if_neg other] at fails
            exact ⟨key, value', by rw [get?_cons, if_neg (Ne.symm other), found], fails⟩
          · rintro ⟨key, value', found, fails⟩
            rw [get?_cons] at found
            split at found
            · rename_i here
              obtain rfl := Option.some.inj found
              rw [← here, over'] at fails
              cases fails
            · rename_i other
              refine ⟨key, value', found, ?_⟩
              rwa [get?_put, if_neg (Ne.symm other)]

end Fields

section Graphs

variable {graph : KeyGraph κ α} {root : Nat} {key : κ}

omit [DecidableEq κ] in
theorem graphFields_keys (graph : KeyGraph κ α) (root : Nat) :
    (graphFields graph root).map Prod.fst = (graph root).map Prod.fst := by
  rw [graphFields, List.map_map]
  rfl

theorem get?_graphFields (graph : KeyGraph κ α) (root : Nat) (key : κ) :
    get? (graphFields graph root) key = ((graph root).lookup key).map (ofGraph graph) := by
  rw [graphFields]
  induction graph root with
  | nil => rfl
  | cons field fields ih =>
      obtain ⟨k, x⟩ := field
      rw [List.map_cons, get?_cons, ih, List.lookup_cons]
      by_cases same : k = key
      · rw [if_pos same, same, beq_self_eq_true]
        rfl
      · rw [if_neg same, beq_eq_false_iff_ne.mpr (Ne.symm same)]

/-- The mappings of a graph's tree are mappings of the graph. -/
theorem fieldsAt_graphFields {path : List κ} {mapping : Fields κ α}
    (found : fieldsAt (graphFields graph root) path = some mapping) :
    ∃ id, mapping = graphFields graph id := by
  induction path generalizing root with
  | nil => exact ⟨root, (Option.some.inj found).symm⟩
  | cons key path ih =>
      rw [fieldsAt, get?_graphFields] at found
      cases under : (graph root).lookup key with
      | none =>
          rw [under] at found
          cases found
      | some x =>
          rw [under] at found
          cases x with
          | inl value => cases found
          | inr id => exact ih found

theorem wellKeyed_graphFields (keyed : ∀ id, ((graph id).map Prod.fst).Nodup) (root : Nat) :
    WellKeyed (graphFields graph root) := by
  intro path mapping found
  obtain ⟨id, rfl⟩ := fieldsAt_graphFields found
  rw [graphFields_keys]
  exact keyed id

theorem keys_eraseIn (keyed : ∀ id, ((graph id).map Prod.fst).Nodup) (root : Nat) (key : κ)
    (id : Nat) : ((eraseIn graph root key id).map Prod.fst).Nodup := by
  rw [eraseIn]
  split
  · exact (keyed id).sublist (List.filter_sublist.map _)
  · exact keyed id

theorem get?_eraseIn (graph : KeyGraph κ α) (root : Nat) (key : κ) :
    get? (graphFields (eraseIn graph root key) root) key = none := by
  rw [get?_eq_none_iff, graphFields_keys, eraseIn, if_pos rfl]
  simp

end Graphs

section Stack

variable {lower upper merged bottom : Fields κ α} {tree tree' : KeyTree κ α} {path : List κ}
variable {depth : Nat}

theorem decision_congr (same : tree.view = tree'.view) (path : List κ) :
    tree.decision path = tree'.decision path := by
  cases path with
  | nil => rw [decision, decision, same]
  | cons key path => rw [decision, decision, same]

theorem decision_node_cons (fields : Fields κ α) (key : κ) (path : List κ) :
    (node fields).decision (key :: path) =
      match get? fields key with
      | none => .silent
      | some tree => tree.decision path := rfl

@[simp] theorem Decision.silent_over (d : Decision α) : Decision.silent.over d = d := rfl

@[simp] theorem Decision.over_silent (d : Decision α) : d.over .silent = d := by
  cases d with
  | silent => rfl
  | holds held => rfl
  | blocked => rfl

theorem Decision.held?_over_blocked (d : Decision α) : (d.over .blocked).held? = d.held? := by
  cases d with
  | silent => rfl
  | holds held => rfl
  | blocked => rfl

theorem Decision.held?_over_congr (d : Decision α) {d₁ d₂ : Decision α}
    (same : d₁.held? = d₂.held?) : (d.over d₁).held? = (d.over d₂).held? := by
  cases d with
  | silent => exact same
  | holds held => rfl
  | blocked => rfl

/-- What replaces a tree has at a path what it had. -/
theorem held?_over_replaced
    (replaces : ∀ upper lower, tree.view = .inr upper → tree'.view ≠ .inr lower) (path : List κ) :
    ((tree.decision path).over (tree'.decision path)).held? = tree.held? path := by
  cases viewed : tree.view with
  | inl value =>
      cases path with
      | nil =>
          rw [held?, decision, viewed]
          rfl
      | cons key path =>
          rw [held?, decision, viewed]
          rfl
  | inr upper =>
      cases viewed' : tree'.view with
      | inr lower => exact absurd viewed' (replaces upper lower viewed)
      | inl value =>
          cases path with
          | nil =>
              rw [held?, decision, viewed]
              rfl
          | cons key path =>
              have across : tree'.decision (key :: path) = .blocked := by rw [decision, viewed']
              rw [across]
              exact Decision.held?_over_blocked _

/-- What leads to a mapping begins with one. -/
theorem view_of_held? (held : tree.held? path = some .mapping) :
    ∃ fields, tree.view = .inr fields := by
  cases viewed : tree.view with
  | inr fields => exact ⟨fields, rfl⟩
  | inl value =>
      cases path with
      | nil =>
          rw [held?, decision, viewed] at held
          cases held
      | cons key path =>
          rw [held?, decision, viewed] at held
          cases held

theorem held?_of_view (mapping : tree.view = .inr upper) (path : List κ) :
    tree.held? path = (node upper).held? path :=
  congrArg Decision.held? (decision_congr (by rw [mapping]; rfl) path)

theorem wellKeyed_nil : WellKeyed ([] : Fields κ α) := by
  intro path mapping found
  cases path with
  | nil =>
      obtain rfl := Option.some.inj found
      exact List.nodup_nil
  | cons key path => cases found

theorem WellKeyed.keys (keyed : WellKeyed upper) : (upper.map Prod.fst).Nodup :=
  keyed [] upper rfl

theorem WellKeyed.under (keyed : WellKeyed upper) {key : κ} {fields : Fields κ α}
    (found : get? upper key = some tree) (mapping : tree.view = .inr fields) :
    WellKeyed fields := by
  intro path held there
  refine keyed (key :: path) held ?_
  rw [fieldsAt, found, Option.map_some, mapping]
  exact there

omit [DecidableEq κ] in
/-- A value replaces what is below it, or two mappings are merged. -/
theorem mergeOver_cases (merge : Fields κ α → Fields κ α → Option (Fields κ α))
    (tree tree' : KeyTree κ α) :
    (mergeOver merge (some tree') tree = some tree ∧
      ∀ upper lower, tree.view = .inr upper → tree'.view ≠ .inr lower) ∨
    ∃ upper lower, tree.view = .inr upper ∧ tree'.view = .inr lower ∧
      mergeOver merge (some tree') tree = (merge lower upper).map node := by
  rw [mergeOver, Option.map_some]
  cases tree.view with
  | inl value => exact .inl ⟨rfl, nofun⟩
  | inr upper =>
      cases tree'.view with
      | inl value => exact .inl ⟨rfl, nofun⟩
      | inr lower => exact .inr ⟨upper, lower, rfl, rfl, rfl⟩

omit [DecidableEq κ] in
theorem mergeOver_none (merge : Fields κ α → Fields κ α → Option (Fields κ α))
    (tree : KeyTree κ α) : mergeOver merge none tree = some tree := by
  rw [mergeOver, Option.map_none]
  cases tree.view with
  | inl value => rfl
  | inr upper => rfl

/-- In a merge the upper mapping decides where it is not silent, and the lower one elsewhere. -/
theorem held?_mergeFields (keyed : WellKeyed upper)
    (done : mergeFields depth lower upper = some merged) (path : List κ) :
    (node merged).held? path =
      (((node upper).decision path).over ((node lower).decision path)).held? := by
  induction path generalizing depth lower upper merged with
  | nil => rfl
  | cons key path ih =>
      cases depth with
      | zero => cases done
      | succ depth =>
          have got := get?_mergeFields keyed.keys done key
          rw [held?, decision_node_cons, decision_node_cons, decision_node_cons]
          cases found : get? upper key with
          | none =>
              rw [found] at got
              rw [got]
              rfl
          | some tree =>
              rw [found] at got
              dsimp only at got ⊢
              cases below : get? lower key with
              | none =>
                  rw [below, mergeOver_none] at got
                  rw [got]
                  exact congrArg Decision.held? (Decision.over_silent _).symm
              | some tree' =>
                  rw [below] at got
                  rcases mergeOver_cases (mergeFields depth) tree tree' with ⟨same, replaces⟩ |
                    ⟨upper', lower', viewed, viewed', same⟩
                  · rw [got, same]
                    exact (held?_over_replaced replaces path).symm
                  · cases inner : mergeFields depth lower' upper' with
                    | none =>
                        rw [inner] at same
                        have fails := (mergeFields_succ_eq_none keyed.keys).mpr
                          ⟨key, tree, found, below ▸ same⟩
                        rw [done] at fails
                        cases fails
                    | some merged' =>
                        have upper : tree.decision path = (node upper').decision path :=
                          decision_congr viewed path
                        have lower : tree'.decision path = (node lower').decision path :=
                          decision_congr viewed' path
                        rw [got, same, inner]
                        dsimp only [Option.map_some]
                        rw [upper, lower]
                        exact ih (keyed.under found viewed) inner

/-- A merge fails exactly where two mappings go on below the levels that it is given. -/
theorem mergeFields_eq_none (keyed : WellKeyed upper) :
    mergeFields depth lower upper = none ↔ ∃ path, path.length = depth ∧
      (node upper).held? path = some .mapping ∧ (node lower).held? path = some .mapping := by
  induction depth generalizing lower upper with
  | zero => exact iff_of_true rfl ⟨[], rfl, rfl, rfl⟩
  | succ depth ih =>
      rw [mergeFields_succ_eq_none keyed.keys]
      constructor
      · rintro ⟨key, tree, found, fails⟩
        cases below : get? lower key with
        | none =>
            rw [below, mergeOver_none] at fails
            cases fails
        | some tree' =>
            rw [below] at fails
            rcases mergeOver_cases (mergeFields depth) tree tree' with ⟨same, -⟩ |
              ⟨upper', lower', viewed, viewed', same⟩
            · rw [same] at fails
              cases fails
            · rw [same, Option.map_eq_none_iff, ih (keyed.under found viewed)] at fails
              obtain ⟨path, length, held, held'⟩ := fails
              refine ⟨key :: path, congrArg Nat.succ length, ?_, ?_⟩
              · rw [held?, decision_node_cons, found]
                exact (held?_of_view viewed path).trans held
              · rw [held?, decision_node_cons, below]
                exact (held?_of_view viewed' path).trans held'
      · rintro ⟨path, length, held, held'⟩
        obtain ⟨key, path, rfl⟩ := List.exists_cons_of_length_eq_add_one length
        rw [held?, decision_node_cons] at held held'
        cases found : get? upper key with
        | none =>
            rw [found] at held
            cases held
        | some tree =>
            cases below : get? lower key with
            | none =>
                rw [below] at held'
                cases held'
            | some tree' =>
                rw [found] at held
                rw [below] at held'
                obtain ⟨upper', viewed⟩ := view_of_held? held
                obtain ⟨lower', viewed'⟩ := view_of_held? held'
                refine ⟨key, tree, found, ?_⟩
                rcases mergeOver_cases (mergeFields depth) tree tree' with ⟨-, replaces⟩ |
                  ⟨upper'', lower'', seen, seen', same⟩
                · exact absurd viewed' (replaces upper' lower' viewed)
                · rw [below, same, Option.map_eq_none_iff, ih (keyed.under found seen)]
                  exact ⟨path, Nat.succ.inj length, (held?_of_view seen path).symm.trans held,
                    (held?_of_view seen' path).symm.trans held'⟩

/-- What a merged stack has at a path is what the stack has. -/
theorem held?_mergeStack {uppers : List (Fields κ α)}
    (keyed : ∀ upper ∈ uppers, WellKeyed upper)
    (done : mergeStack depth uppers bottom = some merged) (path : List κ) :
    (node merged).held? path = nearest? ((uppers ++ [bottom]).map node) path := by
  induction uppers generalizing depth merged with
  | nil =>
      obtain rfl := Option.some.inj done
      exact congrArg Decision.held? (Decision.over_silent _).symm
  | cons upper uppers ih =>
      obtain ⟨lower, below, done⟩ := Option.bind_eq_some_iff.mp done
      have rest := ih (fun upper' mem => keyed upper' (.tail upper mem)) below
      calc (node merged).held? path
          = (((node upper).decision path).over ((node lower).decision path)).held? :=
            held?_mergeFields (keyed upper (.head uppers)) done path
        _ = nearest? (((upper :: uppers) ++ [bottom]).map node) path :=
            Decision.held?_over_congr _ rest

/-- The merge of a stack fails exactly where one of its mappings and those below it go on below the
levels that its merge is given. -/
theorem mergeStack_eq_none {uppers : List (Fields κ α)}
    (keyed : ∀ upper ∈ uppers, WellKeyed upper) : mergeStack depth uppers bottom = none ↔
      ∃ before upper after path, uppers = before ++ upper :: after ∧
        path.length = depth - before.length ∧ (node upper).held? path = some .mapping ∧
        nearest? ((after ++ [bottom]).map node) path = some .mapping := by
  induction uppers generalizing depth with
  | nil => exact iff_of_false nofun (by simp)
  | cons upper uppers ih =>
      have keyed' : ∀ upper' ∈ uppers, WellKeyed upper' :=
        fun upper' mem => keyed upper' (.tail upper mem)
      have deeper := @ih (depth - 1) keyed'
      rw [mergeStack]
      constructor
      · intro fails
        cases below : mergeStack (depth - 1) uppers bottom with
        | none =>
            obtain ⟨before, upper', after, path, rfl, length, held, held'⟩ := deeper.mp below
            refine ⟨upper :: before, upper', after, path, rfl, ?_, held, held'⟩
            rw [length, List.length_cons]
            omega
        | some lower =>
            rw [below, Option.bind_some, mergeFields_eq_none (keyed upper (.head uppers))] at fails
            obtain ⟨path, length, held, held'⟩ := fails
            refine ⟨[], upper, uppers, path, rfl, length, held, ?_⟩
            rw [← held?_mergeStack keyed' below, held']
      · rintro ⟨before, upper', after, path, split, length, held, held'⟩
        cases below : mergeStack (depth - 1) uppers bottom with
        | none => rfl
        | some lower =>
            cases before with
            | nil =>
                obtain ⟨rfl, rfl⟩ := List.cons.inj split
                rw [Option.bind_some, mergeFields_eq_none (keyed upper (.head uppers))]
                exact ⟨path, length, held, (held?_mergeStack keyed' below path).trans held'⟩
            | cons first before =>
                obtain ⟨rfl, rfl⟩ := List.cons.inj split
                rw [List.length_cons] at length
                have shorter : path.length = depth - 1 - before.length := by
                  rw [length, Nat.sub_sub, Nat.add_comm]
                rw [deeper.mpr ⟨before, upper', after, path, rfl, shorter, held, held'⟩] at below
                cases below

/-- The lowest merge comes first. -/
theorem mergeStack_append (depth : Nat) (uppers : List (Fields κ α)) (upper bottom : Fields κ α) :
    mergeStack depth (uppers ++ [upper]) bottom =
      (mergeFields (depth - uppers.length) bottom upper).bind (mergeStack depth uppers) := by
  induction uppers generalizing depth with
  | nil =>
      rw [List.nil_append, mergeStack, mergeStack, Option.bind_some]
      exact (Option.bind_fun_some _).symm
  | cons first uppers ih =>
      rw [List.cons_append, mergeStack, ih, Option.bind_assoc, List.length_cons, Nat.sub_sub,
        Nat.add_comm]
      rfl

end Stack

end KeyTree
