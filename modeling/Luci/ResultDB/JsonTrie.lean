import Luci.ResultDB.JsonResults

/-!
# The tests trie of JSON Test Results

`ConvertFromJSON` decodes the document and then walks the trie under `tests` with
`convertTests`. At each node it decodes a map, and for each member it forms the test path (the
parent's path, the delimiter and the key; at the root `test_name_prefix` and the key). A member
that decodes as `TestFields` with an actual and an expected status is a test, written to `Tests`
under its path; any other member is walked as a node.

A `range` over a Go map takes the entries in an order the language leaves open, and the order
can differ from one run to the next. A run of the walk is therefore a relation: each `range`
takes any permutation of its map's entries. Writes to `Tests` under distinct paths commute, but
two members whose paths join to the same test path (a key holding the delimiter, or a prefix
at the root) write the same entry, and the order of the run decides which one stays.
-/

namespace Luci.ResultDB.Formats

/-- `m[k] = v` on a Go map kept as its entries. -/
def mapSet {α : Type} (m : List (String × α)) (k : String) (v : α) : List (String × α) :=
  if m.any (·.1 = k) then m.map fun e => if e.1 = k then (k, v) else e else m ++ [(k, v)]

/-- The check that a member decoded as `TestFields`. -/
def TestFields.isLeaf (f : TestFields) : Bool := f.actual ≠ "" && f.expected ≠ ""

section Walk

variable {Raw : Type} (L : JsonLib Raw) (r : JSONTestResults Raw)

/-- The test path of the member `key` under `curPath`. -/
def memberPath (curPath key : String) : Except String String :=
  let delim := if r.pathDelimiter ≠ "" then r.pathDelimiter else "/"
  if curPath ≠ "" then .ok (curPath ++ delim ++ key)
  else
    match List.lookup "test_name_prefix" r.metadata with
    | none => .ok key
    | some prefixJSON =>
      match L.toString prefixJSON with
      | .ok pre => .ok (pre ++ key)
      | .error e =>
        .error ("test_name_prefix not string, got " ++ L.quote prefixJSON ++ ": " ++ e)

mutual
/-- A run of `convertTests(curPath, curNode)` from `Tests = t` to its result: the node's map,
in an order of the run. -/
inductive ConvertTests :
    String → Raw → List (String × TestFields) → Except String (List (String × TestFields)) → Prop
  | notMap {curPath curNode t e} : L.toMap curNode = .error e →
      ConvertTests curPath curNode t
        (.error (L.quote curNode ++ " not map[string]json.RawMessage: " ++ e))
  | range {curPath curNode t maybeNode order res} : L.toMap curNode = .ok maybeNode →
      order.Perm maybeNode → ConvertMembers curPath order t res →
      ConvertTests curPath curNode t res

/-- The loop of `convertTests` over the members, in the order the run takes them. -/
inductive ConvertMembers :
    String → List (String × Raw) → List (String × TestFields) →
      Except String (List (String × TestFields)) → Prop
  | done {curPath t} : ConvertMembers curPath [] t (.ok t)
  | pathError {curPath key value rest t e} : memberPath L r curPath key = .error e →
      ConvertMembers curPath ((key, value) :: rest) t (.error e)
  | leaf {curPath key value rest t testPath res} : memberPath L r curPath key = .ok testPath →
      (L.toFields value).isLeaf = true →
      ConvertMembers curPath rest (mapSet t testPath (L.toFields value)) res →
      ConvertMembers curPath ((key, value) :: rest) t res
  | nodeError {curPath key value rest t testPath e} : memberPath L r curPath key = .ok testPath →
      (L.toFields value).isLeaf = false → ConvertTests testPath value t (.error e) →
      ConvertMembers curPath ((key, value) :: rest) t
        (.error ("error attempting conversion of " ++ L.quote value ++ " as intermediated node: " ++
          e))
  | node {curPath key value rest t testPath t' res} : memberPath L r curPath key = .ok testPath →
      (L.toFields value).isLeaf = false → ConvertTests testPath value t (.ok t') →
      ConvertMembers curPath rest t' res → ConvertMembers curPath ((key, value) :: rest) t res
end

/-- `ConvertFromJSON` once `Decode` gave `r`: a run of the walk from the root of `tests` and the
`Tests` that `Decode` left, and `r` with the `Tests` the run ends with. -/
def JSONTestResults.ConvertFromJSON (res : Except String (JSONTestResults Raw)) : Prop :=
  ∃ t, ConvertTests L r "" r.testsRaw r.tests t ∧ res = t.map fun tests => { r with tests := tests }

end Walk

theorem mapSet_nodup {α : Type} {m : List (String × α)} (hm : (m.map Prod.fst).Nodup) (k : String)
    (v : α) : ((mapSet m k v).map Prod.fst).Nodup := by
  unfold mapSet
  split_ifs with h
  · have : (m.map fun e => if e.1 = k then (k, v) else e).map Prod.fst = m.map Prod.fst := by
      rw [List.map_map]
      exact List.map_congr_left fun e _ => by by_cases he : e.1 = k <;> simp [he]
    rwa [this]
  · simp only [List.any_eq_true, decide_eq_true_eq, not_exists, not_and] at h
    rw [List.map_append, List.nodup_append]
    exact ⟨hm, List.nodup_singleton _, by simpa using fun x hx => h (k, x) hx rfl⟩

theorem foldl_mapSet_nodup {α : Type} (kvs : List (String × α)) {acc : List (String × α)}
    (h : (acc.map Prod.fst).Nodup) :
    ((kvs.foldl (fun m kv => mapSet m kv.1 kv.2) acc).map Prod.fst).Nodup := by
  induction kvs generalizing acc with
  | nil => exact h
  | cons kv kvs ih => exact ih (mapSet_nodup h _ _)

/-! ## A run that depends on the order -/

inductive Json
  | num (x : Float)
  | str (s : String)
  | arr (xs : List Json)
  | obj (kvs : List (String × Json))

def Json.stringMember (kvs : List (String × Json)) (key : String) : String :=
  kvs.foldl (fun acc kv => match kv with
    | (k, .str s) => if k = key then s else acc
    | _ => acc) ""

def Json.numbersMember (kvs : List (String × Json)) (key : String) : List Float :=
  kvs.foldl (fun acc kv => match kv with
    | (k, .arr xs) => if k = key then xs.map (fun | .num x => x | _ => 0) else acc
    | _ => acc) []

def fixtureLib : JsonLib Json where
  toMap
    | .obj kvs => .ok (kvs.foldl (fun m kv => mapSet m kv.1 kv.2) [])
    | _ => .error "json: cannot unmarshal value into Go value of type map[string]json.RawMessage"
  toFields
    | .obj kvs => ⟨Json.stringMember kvs "actual", Json.stringMember kvs "expected", [], 0,
        Json.numbersMember kvs "times"⟩
    | _ => ⟨"", "", [], 0, []⟩
  toString
    | .str s => .ok s
    | _ => .error "json: cannot unmarshal value into Go value of type string"
  toStrings _ := .error "json: cannot unmarshal value into Go value of type []string"
  quote _ := "\"...\""
  toMap_nodup := by
    intro raw m h
    cases raw with
    | obj kvs =>
      obtain rfl := Except.ok.inj h
      exact foldl_mapSet_nodup kvs List.nodup_nil
    | _ => cases h

def leafJson (actual : String) : Json :=
  .obj [("actual", .str actual), ("expected", .str "PASS"), ("times", .arr [.num 0.5])]

def collidingResults : JSONTestResults Json :=
  ⟨false, "", .obj [("a/b", leafJson "PASS"), ("a", .obj [("b", leafJson "FAIL")])], [], 3, "", []⟩

def collidingRun (actual : String) : JSONTestResults Json :=
  { collidingResults with tests := [("a/b", fixtureLib.toFields (leafJson actual))] }

theorem collidingResults_text_order :
    collidingResults.ConvertFromJSON fixtureLib (.ok (collidingRun "FAIL")) :=
  ⟨_, .range rfl (.refl _) <| .leaf rfl rfl <|
    .node rfl rfl (.range rfl (.refl _) (.leaf rfl rfl .done)) .done, rfl⟩

theorem collidingResults_swapped_order :
    collidingResults.ConvertFromJSON fixtureLib (.ok (collidingRun "PASS")) :=
  ⟨_, .range rfl (.swap _ _ _) <|
    .node rfl rfl (.range rfl (.refl _) (.leaf rfl rfl .done)) <| .leaf rfl rfl .done, rfl⟩

theorem convertFromJSON_depends_on_order :
    ∃ r₁ r₂ : JSONTestResults Json,
      collidingResults.ConvertFromJSON fixtureLib (.ok r₁) ∧
      collidingResults.ConvertFromJSON fixtureLib (.ok r₂) ∧
      r₁.tests.map (fun e => (e.1, e.2.actual)) = [("a/b", "FAIL")] ∧
      r₂.tests.map (fun e => (e.1, e.2.actual)) = [("a/b", "PASS")] ∧
      (r₁.toProtos plainEnv fixtureLib "" shardInvocation fun _ => none).1.map
        (·.map (·.status)) = .ok [.fail] ∧
      (r₂.toProtos plainEnv fixtureLib "" shardInvocation fun _ => none).1.map
        (·.map (·.status)) = .ok [.pass] :=
  ⟨_, _, collidingResults_text_order, collidingResults_swapped_order, rfl, rfl, rfl, rfl⟩

/-! ## Whether a run fails does not depend on the order -/

section Converts

variable {Raw : Type} (L : JsonLib Raw) (r : JSONTestResults Raw)

mutual
inductive NodeConverts : String → Raw → Prop
  | mk {curPath curNode maybeNode} : L.toMap curNode = .ok maybeNode →
      (∀ kv ∈ maybeNode, MemberConverts curPath kv.1 kv.2) → NodeConverts curPath curNode

inductive MemberConverts : String → String → Raw → Prop
  | leaf {curPath key value testPath} : memberPath L r curPath key = .ok testPath →
      (L.toFields value).isLeaf = true → MemberConverts curPath key value
  | node {curPath key value testPath} : memberPath L r curPath key = .ok testPath →
      (L.toFields value).isLeaf = false → NodeConverts testPath value →
      MemberConverts curPath key value
end

variable {L r}

theorem nodeConverts_iff {curPath : String} {curNode : Raw} {maybeNode : List (String × Raw)}
    (h : L.toMap curNode = .ok maybeNode) :
    NodeConverts L r curPath curNode ↔ ∀ kv ∈ maybeNode, MemberConverts L r curPath kv.1 kv.2 := by
  refine ⟨fun ⟨h', hall⟩ => ?_, .mk h⟩
  rw [h] at h'
  cases h'
  exact hall

theorem not_nodeConverts_of_toMap_error {curPath : String} {curNode : Raw} {e : String}
    (h : L.toMap curNode = .error e) : ¬NodeConverts L r curPath curNode := fun ⟨h', _⟩ => by
  rw [h] at h'
  cases h'

theorem not_memberConverts_of_memberPath_error {curPath key : String} {value : Raw} {e : String}
    (h : memberPath L r curPath key = .error e) : ¬MemberConverts L r curPath key value := by
  rintro (⟨h', -⟩ | ⟨h', -, -⟩) <;> rw [h] at h' <;> cases h'

theorem memberConverts_iff {curPath key : String} {value : Raw} {testPath : String}
    (hp : memberPath L r curPath key = .ok testPath) (hl : (L.toFields value).isLeaf = false) :
    MemberConverts L r curPath key value ↔ NodeConverts L r testPath value := by
  refine ⟨?_, .node hp hl⟩
  rintro (⟨_, hl'⟩ | ⟨hp', _, hn⟩)
  · rw [hl] at hl'
    cases hl'
  · rw [hp] at hp'
    cases hp'
    exact hn

theorem ConvertMembers.isOk_iff {curPath : String} {order : List (String × Raw)} {t res}
    (h : ConvertMembers L r curPath order t res) :
    res.isOk ↔ ∀ kv ∈ order, MemberConverts L r curPath kv.1 kv.2 := by
  refine @ConvertMembers.rec _ L r (fun curPath curNode _ res _ =>
      res.isOk ↔ NodeConverts L r curPath curNode)
    (fun curPath order _ res _ => res.isOk ↔ ∀ kv ∈ order, MemberConverts L r curPath kv.1 kv.2)
    ?notMap ?range ?done ?pathError ?leaf ?nodeError ?node _ _ _ _ h
  case notMap =>
    exact fun h => iff_of_false Bool.false_ne_true (not_nodeConverts_of_toMap_error h)
  case range =>
    exact fun h hperm _ ih => ih.trans <|
      (forall_congr' fun kv => imp_congr_left hperm.mem_iff).trans (nodeConverts_iff h).symm
  case done => exact iff_of_true rfl nofun
  case pathError =>
    exact fun h => iff_of_false Bool.false_ne_true fun hall =>
      not_memberConverts_of_memberPath_error h (hall _ (List.mem_cons_self _ _))
  case leaf =>
    exact fun h hl _ ih => ih.trans (List.forall_mem_cons.trans (and_iff_right (.leaf h hl))).symm
  case nodeError =>
    exact fun h hl _ ih => iff_of_false Bool.false_ne_true fun hall =>
      Bool.false_ne_true (ih.mpr ((memberConverts_iff h hl).mp (hall _ (List.mem_cons_self _ _))))
  case node =>
    exact fun h hl _ _ ih₁ ih₂ => ih₂.trans <| Iff.symm <|
      (List.forall_mem_cons (p := fun kv : String × Raw => MemberConverts L r _ kv.1 kv.2)).trans
        (and_iff_right ((memberConverts_iff h hl).mpr (ih₁.mp rfl)))

theorem ConvertTests.isOk_iff {curPath : String} {curNode : Raw} {t res}
    (h : ConvertTests L r curPath curNode t res) : res.isOk ↔ NodeConverts L r curPath curNode := by
  cases h with
  | notMap h => exact iff_of_false Bool.false_ne_true (not_nodeConverts_of_toMap_error h)
  | range h hperm hrun =>
    rw [hrun.isOk_iff, nodeConverts_iff h]
    exact forall_congr' fun kv => imp_congr_left hperm.mem_iff

theorem convertFromJSON_isOk_eq {res₁ res₂ : Except String (JSONTestResults Raw)}
    (h₁ : r.ConvertFromJSON L res₁) (h₂ : r.ConvertFromJSON L res₂) : res₁.isOk = res₂.isOk := by
  obtain ⟨t₁, hrun₁, rfl⟩ := h₁
  obtain ⟨t₂, hrun₂, rfl⟩ := h₂
  have h : t₁.isOk = t₂.isOk := Bool.eq_iff_iff.mpr (hrun₁.isOk_iff.trans hrun₂.isOk_iff.symm)
  cases t₁ <;> cases t₂ <;> first | rfl | cases h

end Converts

theorem convertFromJSON_isOk_eq_colliding :
    collidingResults.ConvertFromJSON fixtureLib (.ok (collidingRun "FAIL")) ∧
    collidingResults.ConvertFromJSON fixtureLib (.ok (collidingRun "PASS")) ∧
    (Except.ok (collidingRun "FAIL") : Except String _).isOk =
      (Except.ok (collidingRun "PASS") : Except String _).isOk :=
  ⟨collidingResults_text_order, collidingResults_swapped_order,
    convertFromJSON_isOk_eq collidingResults_text_order collidingResults_swapped_order⟩

end Luci.ResultDB.Formats
