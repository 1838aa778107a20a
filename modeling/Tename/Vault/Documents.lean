import Tename.Codec.Utf8
import Tename.Proxy.Values
import Tename.Vault.Service

/-!
# The text of a vault file

`json.dumps` of a state, which Python refuses for a number of too many digits and for values
that are nested too deep. Whether a state can be written does not depend on its tokens.
-/

namespace Tename

/-- A line break and its indentation. -/
def indent (level : Nat) : String :=
  .ofList ('\n' :: List.replicate (2 * level) ' ')

/-- `json.dumps(value, indent=2, sort_keys=True)`, with the interpreter's remaining recursion
depth. -/
def Json.dumps : Nat → Nat → Json → Except PyError String
  | _, _, .null => .ok "null"
  | _, _, .bool b => .ok (if b then "true" else "false")
  | _, _, .int n => intText n
  | _, _, .float repr => .ok repr
  | _, _, .str text => .ok (quoteJson text)
  | _, _, .uuid _ => .error ⟨"TypeError", "Object of type UUID is not JSON serializable"⟩
  | 0, _, .arr _ | 0, _, .obj _ => .error recursionError
  | _ + 1, _, .arr [] => .ok "[]"
  | _ + 1, _, .obj [] => .ok "\x7b\x7d"
  | depth + 1, level, .arr items => do
      let texts ← items.mapM (dumps depth (level + 1))
      return "[" ++ indent (level + 1) ++ ("," ++ indent (level + 1)).intercalate texts ++
        indent level ++ "]"
  | depth + 1, level, .obj fields => do
      let texts ← (fields.insertionSort (·.1 ≤ ·.1)).mapM fun (key, value) => do
        let value ← dumps depth (level + 1) value
        return quoteJson key ++ ": " ++ value
      return "\x7b" ++ indent (level + 1) ++ ("," ++ indent (level + 1)).intercalate texts ++
        indent level ++ "\x7d"

/-- No number of too many digits, nothing but JSON, and not nested too deep. -/
def Json.serialisable : Nat → Json → Bool
  | _, .int n => n.natAbs < intLimit
  | _, .uuid _ => false
  | 0, .arr _ | 0, .obj _ => false
  | depth + 1, .arr items => items.all (serialisable depth)
  | depth + 1, .obj fields => fields.all fun (_, value) => serialisable depth value
  | _, _ => true

theorem lt_of_lt_pow {n k : Nat} (low : n < 10 ^ 6) (le : 6 ≤ k) : n < 10 ^ k :=
  Nat.lt_of_lt_of_le low (Nat.pow_le_pow_right (by omega) le)

theorem lt_intLimit {n : Nat} (low : n < 10 ^ 6) : n < intLimit :=
  lt_of_lt_pow low (by omega)

theorem serialisable_int {n : Int} {depth : Nat} (low : n.natAbs < intLimit) :
    Json.serialisable depth (.int n) = true := by
  unfold Json.serialisable
  exact decide_eq_true low

/-- `json.dumps` raises on the other values. -/
theorem Json.dumps_isOk (depth level : Nat) (value : Json) :
    (value.dumps depth level).isOk = value.serialisable depth := by
  induction depth generalizing level value with
  | zero =>
      cases value with
      | int n =>
          unfold dumps serialisable
          exact intText_isOk n
      | _ => rfl
  | succ depth ih =>
      cases value with
      | int n =>
          unfold dumps serialisable
          exact intText_isOk n
      | arr items =>
          cases items with
          | nil => rfl
          | cons item items =>
              unfold dumps serialisable
              rw [isOk_bind, isOk_mapM]
              simp only [ih]
      | obj fields =>
          cases fields with
          | nil => rfl
          | cons field fields =>
              unfold dumps serialisable
              rw [isOk_bind, isOk_mapM]
              have each (field : String × Json) : (field.2.dumps depth (level + 1) >>= fun text =>
                  pure (quoteJson field.1 ++ ": " ++ text) : Except PyError String).isOk =
                    field.2.serialisable depth := by
                rw [← ih (level + 1)]
                exact isOk_bind (field.2.dumps depth (level + 1)) (quoteJson field.1 ++ ": " ++ ·)
              refine (List.all_congr rfl fun field => each field).trans ?_
              exact List.Perm.all_eq (List.perm_insertionSort _ _)
      | _ => rfl

theorem ok_of_bind {ε α β : Type} {x : Except ε α} {f : α → β} {b : β}
    (ok : (x >>= fun a => pure (f a)) = .ok b) : ∃ a, x = .ok a ∧ b = f a := by
  cases x with
  | error e => cases ok
  | ok a =>
      cases ok
      exact ⟨a, rfl, rfl⟩

/-- An object begins and ends with its braces. -/
theorem Json.dumps_braces {depth level : Nat} {fields : Payload} {text : String}
    (dumped : Json.dumps depth level (.obj fields) = .ok text) :
    ∃ inner, text = "\x7b" ++ inner ++ "\x7d" := by
  cases depth with
  | zero => cases dumped
  | succ depth =>
      cases fields with
      | nil =>
          cases dumped
          exact ⟨"", rfl⟩
      | cons field fields =>
          unfold dumps at dumped
          obtain ⟨texts, -, rfl⟩ := ok_of_bind dumped
          refine ⟨indent (level + 1) ++ ("," ++ indent (level + 1)).intercalate texts ++
            indent level, ?_⟩
          simp only [String.append_assoc]

namespace Vault

variable {crypto : Crypto} {depth : Nat}

/-- The bytes of a new file. -/
def serialize (depth : Nat) (next : VaultState) : Except PyError (List UInt8) :=
  (Json.dumps depth 0 (.obj (document next))).map fun text => Utf8.encode text.toList

theorem serialize_isOk (depth : Nat) (next : VaultState) :
    (serialize depth next).isOk = Json.serialisable depth (.obj (document next)) := by
  rw [serialize, isOk_map, Json.dumps_isOk]

section Documents

variable {state credentials credentials' : Payload} {key : String} {value : Json}
variable {p : String × Json → Bool} {params : KeyParameters}

theorem all_set : (state.set key value).all p =
    (state.all (fun field => field.1 = key || p field) && p (key, value)) := by
  unfold Payload.set
  split
  · rename_i present
    rw [List.all_map]
    obtain ⟨field, mem, same⟩ := List.any_eq_true.mp present
    have same : field.1 = key := of_decide_eq_true same
    apply Bool.eq_iff_iff.mpr
    simp only [List.all_eq_true, Bool.and_eq_true, Function.comp_apply, Bool.or_eq_true,
      decide_eq_true_eq]
    constructor
    · intro all
      refine ⟨fun other there => ?_, ?_⟩
      · by_cases here : other.1 = key
        · exact .inl here
        · have holds := all other there
          rw [if_neg here] at holds
          exact .inr holds
      · have holds := all field mem
        rw [if_pos same] at holds
        exact holds
    · rintro ⟨others, holds⟩ other there
      split
      · exact holds
      · rename_i elsewhere
        exact (others other there).resolve_left elsewhere
  · rename_i absent
    rw [List.all_append, List.all_cons, List.all_nil, Bool.and_true]
    have others : state.all p = state.all fun field => field.1 = key || p field := by
      rw [Bool.eq_iff_iff, List.all_eq_true, List.all_eq_true]
      refine forall₂_congr fun field mem => ?_
      have other : field.1 ≠ key := fun same =>
        absent (List.any_eq_true.mpr ⟨field, mem, decide_eq_true same⟩)
      simp [other]
    rw [others]

/-- A document depends on the credentials in its field of that name. -/
theorem all_document_congr
    (same : p ("credentials", .obj credentials) = p ("credentials", .obj credentials')) :
    (document (withCredentials state credentials, params)).all p =
      (document (withCredentials state credentials', params)).all p := by
  have set (credentials : Payload) : document (withCredentials state credentials, params) =
      (((state.set "credentials" (.obj credentials)).set "version" (.int 1)).set "salt"
        (.str (.ofList (Base64.encode params.salt)))).set "iterations"
          params.iterations.json := by
    unfold document withCredentials
    refine Payload.setDefault_of_some (?_ : _ = some (Json.obj credentials))
    simp [Payload.get?_set]
  simp only [set, all_set, same]

theorem serialisable_document_congr
    (same : ∀ depth, credentials.all (fun field => field.2.serialisable depth) =
      credentials'.all fun field => field.2.serialisable depth) :
    Json.serialisable depth (.obj (document (withCredentials state credentials, params))) =
      Json.serialisable depth (.obj (document (withCredentials state credentials', params))) := by
  cases depth with
  | zero => rfl
  | succ depth =>
      refine all_document_congr (p := fun field => field.2.serialisable depth) ?_
      cases depth with
      | zero => rfl
      | succ depth => exact same depth

theorem all_set_token (name token : String) :
    (credentials.set name (.str token)).all (fun field => field.2.serialisable depth) =
      (credentials.del name).all fun field => field.2.serialisable depth := by
  have string : Json.serialisable depth (.str token) = true := by
    cases depth <;> rfl
  rw [all_set, string, Bool.and_true, Payload.del, List.all_filter]
  refine List.all_congr rfl fun field => ?_
  by_cases here : field.1 = name <;> simp [here]

theorem all_tokens (key : crypto.Key) (draw : Nat) (plain : List (String × String)) :
    (tokens crypto key draw plain).all (fun field => field.2.serialisable depth) = true := by
  induction plain generalizing draw with
  | nil => rfl
  | cons field plain ih =>
      rw [tokens, List.all_cons, ih (draw + 1), Bool.and_true]
      cases depth <;> rfl

end Documents

end Vault

end Tename
