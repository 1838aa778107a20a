import Tename.Trees.Layers

/-!
# Inheritance of profiles

`ProfileLoader._resolve` follows `extends` from profile to profile and merges each over the
one it extends. A profile is a YAML mapping, which anchors may make hold itself; of the values in
it the loader looks at mappings, strings and nulls.
-/

namespace Tename

open KeyTree (Fields)

/-- A value that is not a mapping. -/
inductive YamlValue where
  | null
  | str (text : String)
  /-- A number, a Boolean, a date or a list. -/
  | other (typeName text : String)
  deriving DecidableEq

/-- A key. Keys that Python takes for equal are one. -/
inductive YamlKey where
  | str (text : String)
  | other (text : String)
  deriving DecidableEq

abbrev Yaml := KeyTree YamlKey YamlValue

/-- A YAML mapping: the mappings of its document, and which of them it is. -/
structure YamlMapping where
  graph : KeyGraph YamlKey YamlValue
  root : Nat
  keyed : ∀ id, ((graph id).map Prod.fst).Nodup

/-- What leaves `_resolve`. -/
inductive ProfileError where
  | profileNotFoundError (message : String)
  | profileInheritanceError (message : String)
  | profileValidationError (message : String)
  /-- Python's own. -/
  | recursionError
  deriving DecidableEq

/-- `MAX_EXTENDS_DEPTH`. -/
def maxExtendsDepth : Nat := 16

/-- The files a loader may read: those of its search paths, and the bundled ones. -/
structure ProfileFiles where
  searchPaths : List (String × (String → Option YamlMapping))
  bundled : String → Option YamlMapping

namespace ProfileFiles

variable (files : ProfileFiles)

/-- The mapping of a name: the first hit wins. -/
def find? (name : String) : Option YamlMapping :=
  (files.searchPaths.findSome? fun path => path.2 name).or (files.bundled name)

/-- `_read`. -/
def read (name : String) : Except ProfileError YamlMapping :=
  match files.find? name with
  | some mapping => .ok mapping
  | none =>
      let searched :=
        if files.searchPaths.isEmpty then "(none)"
        else ", ".intercalate (files.searchPaths.map Prod.fst)
      .error (.profileNotFoundError (s!"profile '{name}' not found. search paths: {searched}; " ++
        "bundled package: tename.profiles"))

end ProfileFiles

/-- `type(value).__name__`. -/
def typeName : Yaml → String
  | .leaf .null => "NoneType"
  | .leaf (.str _) => "str"
  | .leaf (.other typeName _) => typeName
  | .node _ | .shared .. => "dict"

/-- `extends`. -/
def extendsKey : YamlKey := .str "extends"

/-- A profile without its `extends`, which is taken out of the mapping itself, wherever it is
held. -/
def YamlMapping.body (mapping : YamlMapping) : Fields YamlKey YamlValue :=
  KeyTree.graphFields (KeyTree.eraseIn mapping.graph mapping.root extendsKey) mapping.root

/-- `data.pop("extends", None)`: nothing if it is absent or null. -/
def YamlMapping.parent? (mapping : YamlMapping) : Option Yaml :=
  match KeyTree.get? (KeyTree.graphFields mapping.graph mapping.root) extendsKey with
  | none => none
  | some (.leaf .null) => none
  | some value => some value

/-- `_deep_merge`, with the calls of it that the interpreter's stack has room for. -/
def deepMerge (depth : Nat) (parent child : Fields YamlKey YamlValue) :
    Except ProfileError (Fields YamlKey YamlValue) :=
  match KeyTree.mergeFields depth parent child with
  | some merged => .ok merged
  | none => .error .recursionError

/-- `_resolve`. The stack has room for `depth` calls of `_deep_merge` beside sixteen of `_resolve`,
and each that there is less leaves room for one more. -/
def resolve (files : ProfileFiles) (depth : Nat) (name : String) (visited : List String) :
    Except ProfileError (Fields YamlKey YamlValue) :=
  if name ∈ visited then
    let chain := " -> ".intercalate (visited ++ [name])
    .error (.profileInheritanceError s!"profile extends cycle: {chain}")
  else if maxExtendsDepth ≤ visited.length then
    .error (.profileInheritanceError
      s!"profile '{name}': extends depth exceeds {maxExtendsDepth}")
  else
    match files.read name with
    | .error e => .error e
    | .ok data =>
        match data.parent? with
        | none => .ok data.body
        | some (.leaf (.str parentName)) =>
            (resolve files depth parentName (visited ++ [name])).bind fun parent =>
              deepMerge (depth + maxExtendsDepth - (visited.length + 1)) parent data.body
        | some value =>
            let given := typeName value
            .error (.profileValidationError
              (s!"profile '{name}': 'extends' must be a string, " ++ s!"got {given}"))
termination_by maxExtendsDepth - visited.length
decreasing_by
  rw [List.length_append, List.length_singleton]
  omega

namespace ProfileFiles

section Chains

variable (files : ProfileFiles)

/-- The profile is there and extends another. -/
def Extends (name parent : String) : Prop :=
  ∃ mapping, files.find? name = some mapping ∧ mapping.parent? = some (.leaf (.str parent))

/-- Following `extends` from a profile one comes through the profiles `names` to `last`: no
profile twice, and sixteen with `last` at most. -/
structure Chain (first : String) (names : List String) (last : String) : Prop where
  starts : (names ++ [last]).head? = some first
  links : (names ++ [last]).IsChain (Extends files)
  distinct : (names ++ [last]).Nodup
  short : names.length < maxExtendsDepth

/-- The chain revisits a name. -/
def Revisits (first : String) : Prop :=
  ∃ names last parent, Chain files first names last ∧ Extends files last parent ∧
    parent ∈ names ++ [last]

/-- The chain needs a seventeenth profile. -/
def Exceeds (first : String) : Prop :=
  ∃ names last parent, Chain files first names last ∧ Extends files last parent ∧
    names.length + 1 = maxExtendsDepth

/-- The chain comes to a name without a profile. -/
def Misses (first : String) : Prop :=
  ∃ names last, Chain files first names last ∧ files.find? last = none

/-- The chain comes to an `extends` that is neither a string nor null. -/
def Misleads (first : String) : Prop :=
  ∃ names last mapping value, Chain files first names last ∧ files.find? last = some mapping ∧
    mapping.parent? = some value ∧ ∀ text, value ≠ .leaf (.str text)

/-- The chain ends, through `names`, with a profile that extends none. -/
def EndsWith (first : String) (names : List String) (last : String) : Prop :=
  Chain files first names last ∧ ∃ mapping, files.find? last = some mapping ∧
    mapping.parent? = none

/-- What a profile says itself. -/
def body (name : String) : Fields YamlKey YamlValue :=
  ((files.find? name).map YamlMapping.body).getD []

/-- The profiles of a chain, the nearest first, as trees. -/
def layers (names : List String) : List Yaml :=
  names.map fun name => .node (body files name)

/-- The chain ends, but the stack has no room for the merge of one of its profiles with those that
it extends: along a path of as many keys as there is room for, both go on. -/
def Overruns (depth : Nat) (first : String) : Prop :=
  ∃ names last before name after path, EndsWith files first names last ∧
    names = before ++ name :: after ∧
    path.length = depth + maxExtendsDepth - (before.length + 1) ∧
    (KeyTree.node (body files name)).held? path = some .mapping ∧
    KeyTree.nearest? (layers files (after ++ [last])) path = some .mapping

variable {files} {first last parent : String} {names : List String} {mapping : YamlMapping}

theorem read_of_find? (found : files.find? last = some mapping) :
    files.read last = .ok mapping := by
  rw [read, found]

theorem body_of_find? (found : files.find? last = some mapping) :
    files.body last = mapping.body := by
  rw [body, found]
  rfl

theorem wellKeyed_body (files : ProfileFiles) (name : String) :
    KeyTree.WellKeyed (files.body name) := by
  rw [body]
  cases files.find? name with
  | none => exact KeyTree.wellKeyed_nil
  | some mapping =>
      exact KeyTree.wellKeyed_graphFields
        (KeyTree.keys_eraseIn mapping.keyed mapping.root extendsKey) mapping.root

theorem get?_body (files : ProfileFiles) (name : String) :
    KeyTree.get? (files.body name) extendsKey = none := by
  rw [body]
  cases files.find? name with
  | none => rfl
  | some mapping => exact KeyTree.get?_eraseIn mapping.graph mapping.root extendsKey

theorem Chain.new (chain : Chain files first names last) : last ∉ names := by
  intro mem
  exact (List.nodup_append.mp chain.distinct).2.2 last mem last (.head []) rfl

/-- One profile on its own. -/
theorem chain_singleton (files : ProfileFiles) (first : String) : Chain files first [] first where
  starts := rfl
  links := .singleton first
  distinct := List.nodup_singleton first
  short := by decide

/-- A chain goes on to a new profile. -/
theorem Chain.extend (chain : Chain files first names last) (link : Extends files last parent)
    (other : parent ∉ names ++ [last]) (fits : names.length + 1 ≠ maxExtendsDepth) :
    Chain files first (names ++ [last]) parent where
  starts := by
    rw [List.head?_append, chain.starts]
    rfl
  links := by
    refine List.isChain_append.mpr ⟨chain.links, .singleton parent, ?_⟩
    intro x final y next
    obtain rfl : last = x := by simpa using final
    obtain rfl : parent = y := by simpa using next
    exact link
  distinct := by
    refine List.nodup_append.mpr ⟨chain.distinct, List.nodup_singleton parent, ?_⟩
    intro x mem y mem' same
    rw [List.mem_singleton.mp mem'] at same
    exact other (same ▸ mem)
  short := by
    have short := chain.short
    rw [List.length_append, List.length_singleton]
    omega

/-- The chain before its last profile. -/
theorem Chain.initial {prior : String} (chain : Chain files first (names ++ [prior]) last) :
    Chain files first names prior ∧ Extends files prior last where
  left := {
    starts := by
      have starts := chain.starts
      rw [List.head?_append, Option.or_of_isSome] at starts
      · exact starts
      · cases names with
        | nil => rfl
        | cons name names => rfl
    links := (List.isChain_append.mp chain.links).1
    distinct := (List.nodup_append.mp chain.distinct).1
    short := by
      have short := chain.short
      rw [List.length_append, List.length_singleton] at short
      omega }
  right := (List.isChain_append.mp chain.links).2.2 prior (by simp) last (by simp)

/-- Every chain can be followed until it cannot go on. -/
theorem Chain.exhaust (chain : Chain files first names last) : ∃ names' last',
    Chain files first names' last' ∧ ∀ parent, Extends files last' parent →
      parent ∈ names' ++ [last'] ∨ names'.length + 1 = maxExtendsDepth := by
  induction left : maxExtendsDepth - names.length using Nat.strongRecOn generalizing names last with
  | _ n ih =>
      by_cases goes : ∃ parent, Extends files last parent ∧ parent ∉ names ++ [last] ∧
          names.length + 1 ≠ maxExtendsDepth
      · obtain ⟨parent, link, other, fits⟩ := goes
        have short := chain.short
        refine ih _ ?_ (chain.extend link other fits) rfl
        rw [← left, List.length_append, List.length_singleton]
        omega
      · refine ⟨names, last, chain, fun parent link => ?_⟩
        by_contra both
        exact goes ⟨parent, link, fun mem => both (.inl mem), fun full => both (.inr full)⟩

end Chains

section Resolution

variable {files : ProfileFiles} {first last parent : String} {names : List String}
variable {mapping : YamlMapping} {depth : Nat}

/-- What `_resolve` does with a profile it has not visited and has room for. -/
theorem resolve_of_chain (chain : Chain files first names last) :
    resolve files depth last names =
      match files.read last with
      | .error e => .error e
      | .ok data =>
          match data.parent? with
          | none => .ok data.body
          | some (.leaf (.str parentName)) =>
              (resolve files depth parentName (names ++ [last])).bind fun parent =>
                deepMerge (depth + maxExtendsDepth - (names.length + 1)) parent data.body
          | some value =>
              let given := typeName value
              .error (.profileValidationError
                (s!"profile '{last}': 'extends' must be a string, " ++ s!"got {given}")) := by
  rw [resolve, if_neg chain.new, if_neg (Nat.not_le_of_lt chain.short)]

theorem resolve_of_extends (chain : Chain files first names last)
    (link : Extends files last parent) : resolve files depth last names =
      (resolve files depth parent (names ++ [last])).bind fun lower =>
        deepMerge (depth + maxExtendsDepth - (names.length + 1)) lower (files.body last) := by
  obtain ⟨mapping, found, extends'⟩ := link
  rw [resolve_of_chain chain, read_of_find? found]
  simp only [extends', body_of_find? found]

/-- What the profiles `names` of a chain make of what the rest of it is resolved to. -/
def mergeAbove (files : ProfileFiles) (depth : Nat) (names : List String)
    (bottom : Fields YamlKey YamlValue) : Except ProfileError (Fields YamlKey YamlValue) :=
  match KeyTree.mergeStack (depth + maxExtendsDepth - 1) (names.map files.body) bottom with
  | some merged => .ok merged
  | none => .error .recursionError

theorem mergeAbove_append (names : List String) (prior : String)
    (bottom : Fields YamlKey YamlValue) : mergeAbove files depth (names ++ [prior]) bottom =
      (deepMerge (depth + maxExtendsDepth - (names.length + 1)) bottom (files.body prior)).bind
        (mergeAbove files depth names) := by
  have room : depth + maxExtendsDepth - 1 - names.length =
      depth + maxExtendsDepth - (names.length + 1) := by rw [Nat.sub_sub, Nat.add_comm 1]
  rw [mergeAbove, List.map_append, List.map_singleton, KeyTree.mergeStack_append, List.length_map,
    room, deepMerge]
  cases KeyTree.mergeFields (depth + maxExtendsDepth - (names.length + 1)) bottom
      (files.body prior) with
  | none => rfl
  | some merged => rfl

/-- A profile is resolved by the rest of its chain. -/
theorem resolve_first (chain : Chain files first names last) : resolve files depth first [] =
    (resolve files depth last names).bind (mergeAbove files depth names) := by
  induction names using List.reverseRecOn generalizing last with
  | nil =>
      obtain rfl : last = first := by simpa using chain.starts
      cases resolve files depth last [] with
      | error e => rfl
      | ok result => rfl
  | append_singleton names prior ih =>
      obtain ⟨chain', link⟩ := chain.initial
      rw [ih chain', resolve_of_extends chain' link]
      cases resolve files depth last (names ++ [prior]) with
      | error e => rfl
      | ok result => exact (mergeAbove_append names prior result).symm

end Resolution

section Outcomes

variable {files : ProfileFiles} {first last parent : String} {names : List String}
variable {mapping : YamlMapping} {depth : Nat}

/-- The four ways in which a chain can end, each with what the resolution of its last profile
comes to. -/
inductive ChainEnd (files : ProfileFiles) (names : List String) (last : String) :
    Except ProfileError (Fields YamlKey YamlValue) → Prop where
  | missing (m : String) (absent : files.find? last = none) :
      ChainEnd files names last (.error (.profileNotFoundError m))
  | complete (mapping : YamlMapping) (found : files.find? last = some mapping)
      (final : mapping.parent? = none) : ChainEnd files names last (.ok (files.body last))
  | stuck (m parent : String) (link : Extends files last parent)
      (bars : parent ∈ names ++ [last] ∨ names.length + 1 = maxExtendsDepth) :
      ChainEnd files names last (.error (.profileInheritanceError m))
  | misled (m : String) (mapping : YamlMapping) (value : Yaml)
      (found : files.find? last = some mapping) (given : mapping.parent? = some value)
      (other : ∀ text, value ≠ .leaf (.str text)) :
      ChainEnd files names last (.error (.profileValidationError m))

/-- A name that has been visited, or for which there is no room, is refused. -/
theorem resolve_of_barred {visited : List String}
    (bars : parent ∈ visited ∨ visited.length = maxExtendsDepth) :
    ∃ m, resolve files depth parent visited = .error (.profileInheritanceError m) := by
  rw [resolve]
  by_cases again : parent ∈ visited
  · rw [if_pos again]
    exact ⟨_, rfl⟩
  · rw [if_neg again, if_pos (Nat.le_of_eq (bars.resolve_left again).symm)]
    exact ⟨_, rfl⟩

theorem resolve_of_misled {value : Yaml} (chain : Chain files first names last)
    (found : files.find? last = some mapping) (given : mapping.parent? = some value)
    (other : ∀ text, value ≠ .leaf (.str text)) :
    ∃ m, resolve files depth last names = .error (.profileValidationError m) := by
  rw [resolve_of_chain chain, read_of_find? found]
  cases value with
  | node fields =>
      simp only [given]
      exact ⟨_, rfl⟩
  | shared graph root =>
      simp only [given]
      exact ⟨_, rfl⟩
  | leaf value =>
      cases value with
      | null =>
          simp only [given]
          exact ⟨_, rfl⟩
      | other typeName text =>
          simp only [given]
          exact ⟨_, rfl⟩
      | str text => exact absurd rfl (other text)

theorem chainEnd_of_exhausted (chain : Chain files first names last)
    (exhausted : ∀ parent, Extends files last parent →
      parent ∈ names ++ [last] ∨ names.length + 1 = maxExtendsDepth) :
    ChainEnd files names last (resolve files depth last names) := by
  cases found : files.find? last with
  | none =>
      rw [resolve_of_chain chain, read, found]
      exact .missing _ found
  | some mapping =>
      cases extends' : mapping.parent? with
      | none =>
          rw [resolve_of_chain chain, read_of_find? found]
          simp only [extends', ← body_of_find? found]
          exact .complete mapping found extends'
      | some value =>
          by_cases named : ∃ parent, value = .leaf (.str parent)
          · obtain ⟨parent, rfl⟩ := named
            have link : Extends files last parent := ⟨mapping, found, extends'⟩
            have bars := exhausted parent link
            obtain ⟨m, refused⟩ : ∃ m, resolve files depth parent (names ++ [last]) =
                .error (.profileInheritanceError m) := by
              refine resolve_of_barred (bars.imp_right fun full => ?_)
              rw [List.length_append, List.length_singleton, full]
            rw [resolve_of_extends chain link, refused]
            exact .stuck m parent link bars
          · have other : ∀ text, value ≠ .leaf (.str text) := fun text same => named ⟨text, same⟩
            obtain ⟨m, refused⟩ := resolve_of_misled chain found extends' other
            rw [refused]
            exact .misled m mapping value found extends' other

/-- A profile is resolved as its chain ends. -/
theorem resolve_cases (files : ProfileFiles) (depth : Nat) (first : String) :
    ∃ names last outcome, Chain files first names last ∧ ChainEnd files names last outcome ∧
      resolve files depth first [] = outcome.bind (mergeAbove files depth names) := by
  obtain ⟨names, last, chain, exhausted⟩ := (chain_singleton files first).exhaust
  exact ⟨names, last, _, chain, chainEnd_of_exhausted chain exhausted, resolve_first chain⟩

/-- What is resolved is a merge of what the profiles of the chain say. -/
theorem mergeAbove_eq_ok {bottom merged : Fields YamlKey YamlValue}
    (done : mergeAbove files depth names bottom = .ok merged) :
    KeyTree.mergeStack (depth + maxExtendsDepth - 1) (names.map files.body) bottom =
      some merged := by
  unfold mergeAbove at done
  split at done
  · rename_i same
    rw [same, Except.ok.inj done]
  · cases done

theorem mergeAbove_eq_error {bottom : Fields YamlKey YamlValue} {e : ProfileError}
    (failed : mergeAbove files depth names bottom = .error e) : e = .recursionError ∧
    KeyTree.mergeStack (depth + maxExtendsDepth - 1) (names.map files.body) bottom = none := by
  unfold mergeAbove at failed
  split at failed
  · cases failed
  · rename_i same
    exact ⟨(Except.error.inj failed).symm, same⟩

theorem wellKeyed_bodies (files : ProfileFiles) (names : List String) :
    ∀ upper ∈ names.map files.body, KeyTree.WellKeyed upper := by
  intro upper mem
  obtain ⟨name, -, rfl⟩ := List.mem_map.mp mem
  exact wellKeyed_body files name

/-- The merge of a chain leaves no `extends`. -/
theorem get?_mergeStack {bottom merged : Fields YamlKey YamlValue} (room : Nat)
    (absent : KeyTree.get? bottom extendsKey = none)
    (done : KeyTree.mergeStack room (names.map files.body) bottom = some merged) :
    KeyTree.get? merged extendsKey = none := by
  induction names generalizing room merged with
  | nil =>
      obtain rfl := Option.some.inj done
      exact absent
  | cons name names ih =>
      obtain ⟨lower, below, done⟩ := Option.bind_eq_some_iff.mp done
      cases room with
      | zero => cases done
      | succ room =>
          rw [KeyTree.get?_mergeFields (files.wellKeyed_body name).keys done, get?_body]
          exact ih _ below

theorem inheritance_iff (files : ProfileFiles) (depth : Nat) (name : String) :
    (∃ m, resolve files depth name [] = .error (.profileInheritanceError m)) ↔
      Revisits files name ∨ Exceeds files name := by
  constructor
  · rintro ⟨m, raised⟩
    obtain ⟨names, last, outcome, chain, end', resolved⟩ := resolve_cases files depth name
    rw [resolved] at raised
    cases end' with
    | stuck m parent link bars =>
        exact bars.imp (fun again => ⟨names, last, parent, chain, link, again⟩)
          fun full => ⟨names, last, parent, chain, link, full⟩
    | missing => cases raised
    | complete => cases (mergeAbove_eq_error raised).1
    | misled => cases raised
  · intro h
    obtain ⟨names, last, parent, chain, link, bars⟩ : ∃ names last parent,
        Chain files name names last ∧ Extends files last parent ∧
          (parent ∈ names ++ [last] ∨ (names ++ [last]).length = maxExtendsDepth) := by
      rcases h with ⟨names, last, parent, chain, link, again⟩ |
        ⟨names, last, parent, chain, link, full⟩
      · exact ⟨names, last, parent, chain, link, .inl again⟩
      · exact ⟨names, last, parent, chain, link, .inr (List.length_append.trans full)⟩
    obtain ⟨m, refused⟩ := resolve_of_barred bars
    refine ⟨m, ?_⟩
    rw [resolve_first chain, resolve_of_extends chain link, refused]
    rfl

theorem notFound_iff (files : ProfileFiles) (depth : Nat) (name : String) :
    (∃ m, resolve files depth name [] = .error (.profileNotFoundError m)) ↔ Misses files name := by
  constructor
  · rintro ⟨m, raised⟩
    obtain ⟨names, last, outcome, chain, end', resolved⟩ := resolve_cases files depth name
    rw [resolved] at raised
    cases end' with
    | missing m absent => exact ⟨names, last, chain, absent⟩
    | stuck => cases raised
    | complete => cases (mergeAbove_eq_error raised).1
    | misled => cases raised
  · rintro ⟨names, last, chain, absent⟩
    rw [resolve_first chain, resolve_of_chain chain, read, absent]
    exact ⟨_, rfl⟩

theorem validation_iff (files : ProfileFiles) (depth : Nat) (name : String) :
    (∃ m, resolve files depth name [] = .error (.profileValidationError m)) ↔
      Misleads files name := by
  constructor
  · rintro ⟨m, raised⟩
    obtain ⟨names, last, outcome, chain, end', resolved⟩ := resolve_cases files depth name
    rw [resolved] at raised
    cases end' with
    | misled m mapping value found given other =>
        exact ⟨names, last, mapping, value, chain, found, given, other⟩
    | stuck => cases raised
    | complete => cases (mergeAbove_eq_error raised).1
    | missing => cases raised
  · rintro ⟨names, last, mapping, value, chain, found, given, other⟩
    obtain ⟨m, refused⟩ := resolve_of_misled chain found given other
    rw [resolve_first chain, refused]
    exact ⟨m, rfl⟩

/-- A chain that ends is merged from its last profile on. -/
theorem resolve_of_endsWith (ends : EndsWith files first names last) :
    resolve files depth first [] = mergeAbove files depth names (files.body last) := by
  obtain ⟨chain, mapping, found, final⟩ := ends
  rw [resolve_first chain, resolve_of_chain chain, read_of_find? found, body_of_find? found]
  simp only [final]
  rfl

theorem recursion_iff (files : ProfileFiles) (depth : Nat) (name : String) :
    resolve files depth name [] = .error .recursionError ↔ Overruns files depth name := by
  have fails {names : List String} {last : String} :
      KeyTree.mergeStack (depth + maxExtendsDepth - 1) (names.map files.body) (files.body last) =
        none ↔ ∃ before name' after path, names = before ++ name' :: after ∧
          path.length = depth + maxExtendsDepth - (before.length + 1) ∧
          (KeyTree.node (files.body name')).held? path = some .mapping ∧
          KeyTree.nearest? (layers files (after ++ [last])) path = some .mapping := by
    rw [KeyTree.mergeStack_eq_none (wellKeyed_bodies files names)]
    constructor
    · rintro ⟨before, upper, after, path, split, length, held, held'⟩
      obtain ⟨before, rest, rfl, rfl, split'⟩ := List.map_eq_append_iff.mp split
      obtain ⟨name', after, rfl, rfl, rfl⟩ := List.map_eq_cons_iff.mp split'
      refine ⟨before, name', after, path, rfl, ?_, held, ?_⟩
      · rw [length, List.length_map, Nat.sub_sub, Nat.add_comm 1]
      · rw [← held', layers, List.map_append, List.map_append, List.map_map]
        rfl
    · rintro ⟨before, name', after, path, rfl, length, held, held'⟩
      refine ⟨before.map files.body, files.body name', after.map files.body, path, by simp, ?_,
        held, ?_⟩
      · rw [length, List.length_map, Nat.sub_sub, Nat.add_comm 1]
      · rw [← held', layers, List.map_append, List.map_append, List.map_map]
        rfl
  constructor
  · intro raised
    obtain ⟨names, last, outcome, chain, end', resolved⟩ := resolve_cases files depth name
    rw [resolved] at raised
    cases end' with
    | complete mapping found final =>
        obtain ⟨before, name', after, path, rest⟩ := fails.mp (mergeAbove_eq_error raised).2
        exact ⟨names, last, before, name', after, path, ⟨chain, mapping, found, final⟩, rest⟩
    | stuck => cases raised
    | missing => cases raised
    | misled => cases raised
  · rintro ⟨names, last, before, name', after, path, ends, rest⟩
    rw [resolve_of_endsWith ends, mergeAbove, fails.mpr ⟨before, name', after, path, rest⟩]

/-- A profile is refused for its chain, exactly if that revisits a name, is too long, comes to
a name without a profile or to an `extends` that is neither a string nor null; and the recursion
runs out exactly if two of the mappings that are merged go on below what the stack has room for.
Otherwise the result has no `extends`, and at every path what the nearest profile that decides it
says. -/
theorem resolve_spec (files : ProfileFiles) (depth : Nat) (name : String) :
    ((∃ m, resolve files depth name [] = .error (.profileInheritanceError m)) ↔
      Revisits files name ∨ Exceeds files name) ∧
    ((∃ m, resolve files depth name [] = .error (.profileNotFoundError m)) ↔ Misses files name) ∧
    ((∃ m, resolve files depth name [] = .error (.profileValidationError m)) ↔
      Misleads files name) ∧
    (resolve files depth name [] = .error .recursionError ↔ Overruns files depth name) ∧
    ∀ result, resolve files depth name [] = .ok result →
      KeyTree.get? result extendsKey = none ∧ ∃ names last, EndsWith files name names last ∧
        ∀ path, (KeyTree.node result).held? path =
          KeyTree.nearest? (layers files (names ++ [last])) path := by
  refine ⟨inheritance_iff files depth name, notFound_iff files depth name,
    validation_iff files depth name, recursion_iff files depth name, fun result returned => ?_⟩
  obtain ⟨names, last, outcome, chain, end', resolved⟩ := resolve_cases files depth name
  rw [resolved] at returned
  cases end' with
  | complete mapping found final =>
      have merged := mergeAbove_eq_ok returned
      refine ⟨get?_mergeStack _ (get?_body files last) merged, names, last,
        ⟨chain, mapping, found, final⟩, fun path => ?_⟩
      rw [KeyTree.held?_mergeStack (wellKeyed_bodies files names) merged, layers, List.map_append,
        List.map_append, List.map_map]
      rfl
  | stuck => cases returned
  | missing => cases returned
  | misled => cases returned

end Outcomes

section Exceptions

/-- A document of one mapping. -/
def documentOf (fields : List (YamlKey × (YamlValue ⊕ Nat)))
    (keyed : (fields.map Prod.fst).Nodup) : YamlMapping :=
  ⟨fun _ => fields, 0, fun _ => keyed⟩

/-- A profile whose `extends` is null. -/
def nullExtends : YamlMapping :=
  documentOf [(extendsKey, .inl .null), (.str "tool_format", .inl (.str "json_schema"))]
    (by decide)

/-- A profile that holds itself, as its caching. -/
def looping : YamlMapping :=
  documentOf [(.str "caching", .inr 0)] (by decide)

/-- A profile that extends such a one, and holds itself as well. -/
def loopingToo : YamlMapping :=
  documentOf [(extendsKey, .inl (.str "looping")), (.str "caching", .inr 0)] (by decide)

def unusual : ProfileFiles where
  searchPaths := [("profiles", fun name =>
    if name = "base" then some nullExtends
    else if name = "looping" then some looping
    else if name = "child" then some loopingToo
    else none)]
  bundled _ := none

theorem found_base : unusual.find? "base" = some nullExtends := by
  simp [find?, unusual]

theorem found_looping : unusual.find? "looping" = some looping := by
  simp [find?, unusual]

theorem found_child : unusual.find? "child" = some loopingToo := by
  simp [find?, unusual]

/-- A mapping that holds itself under a key has a mapping at every path of this key. -/
theorem held?_replicate (tree : Yaml) {fields : Fields YamlKey YamlValue} {key : YamlKey}
    (mapping : tree.view = .inr fields) (itself : KeyTree.get? fields key = some tree) (n : Nat) :
    (KeyTree.node fields).held? (List.replicate n key) = some .mapping := by
  induction n with
  | zero => rfl
  | succ n ih =>
      rw [List.replicate_succ, KeyTree.held?, KeyTree.decision_node_cons, itself]
      exact (KeyTree.held?_of_view mapping _).trans ih

theorem child_ends : EndsWith unusual "child" ["child"] "looping" := by
  have link : Extends unusual "child" "looping" := ⟨loopingToo, found_child, rfl⟩
  refine ⟨(chain_singleton unusual "child").extend link (by decide) (by decide), looping,
    found_looping, rfl⟩

/-- A null is not a string, and is taken for no `extends` at all. And of two profiles that hold
themselves, one that extends the other cannot be resolved. -/
theorem null_resolves_and_loop_overruns :
    (unusual.find? "base" = some nullExtends ∧
      KeyTree.get? (KeyTree.graphFields nullExtends.graph nullExtends.root) extendsKey =
        some (.leaf .null) ∧
      ∀ depth, resolve unusual depth "base" [] = .ok nullExtends.body) ∧
    EndsWith unusual "child" ["child"] "looping" ∧
      ∀ depth, resolve unusual depth "child" [] = .error .recursionError := by
  refine ⟨⟨found_base, rfl, fun depth => ?_⟩, child_ends, fun depth => ?_⟩
  · rw [resolve_of_chain (chain_singleton unusual "base"), read_of_find? found_base]
    rfl
  · refine (recursion_iff unusual depth "child").mpr ⟨_, _, [], "child", [],
      List.replicate (depth + maxExtendsDepth - 1) (.str "caching"), child_ends, rfl,
      List.length_replicate, ?_, ?_⟩
    · rw [body_of_find? found_child]
      exact held?_replicate (.shared _ 0) rfl rfl _
    · rw [layers, List.nil_append, List.map_singleton, body_of_find? found_looping]
      exact (congrArg KeyTree.Decision.held? (KeyTree.Decision.over_silent _)).trans
        (held?_replicate (.shared _ 0) rfl rfl _)

end Exceptions

end ProfileFiles

end Tename
