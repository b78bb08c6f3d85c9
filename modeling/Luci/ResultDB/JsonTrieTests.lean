import Luci.ResultDB.JsonTrie

/-!
# What the trie walk leaves in `Tests`

Whatever order its `range`s take, a successful run of `convertTests` leaves under each test path
the fields of a test the trie has there, and what was there before where the trie has none. Only
which of several tests at one path stays depends on the order. So when the tests of the trie
at one path agree (in particular when no two share a path), any two runs leave the same `Tests`,
and `ToProtos`, which reads `Tests` only through its sorted keys and its lookups, converts them
alike.
-/

namespace Luci.ResultDB.Formats

theorem lookup_map_replace {α : Type} (k k' : String) (v : α) :
    ∀ m : List (String × α), (m.map fun e => if e.1 = k then (k, v) else e).lookup k' =
      if k' = k then (if m.any (·.1 = k) then some v else none) else m.lookup k'
  | [] => by simp
  | (a, b) :: m => by
    have ih := lookup_map_replace k k' v m
    by_cases hk : k' = a
    · subst hk
      by_cases ha : k' = k <;> simp [List.lookup_cons, ha, ih]
    · have hb : (k' == a) = false := beq_eq_false_iff_ne.mpr hk
      by_cases ha : a = k
      · subst ha
        simp [List.lookup_cons, hk, hb, ih]
      · rw [List.map_cons, if_neg ha, List.any_cons, decide_eq_false ha, Bool.false_or,
          List.lookup_cons, hb, ih, List.lookup_cons, hb]

theorem lookup_mapSet {α : Type} (m : List (String × α)) (k k' : String) (v : α) :
    (mapSet m k v).lookup k' = if k' = k then some v else m.lookup k' := by
  unfold mapSet
  split_ifs with hany hk hk
  · rw [lookup_map_replace, if_pos hk, if_pos hany]
  · rw [lookup_map_replace, if_neg hk]
  · subst hk
    simp only [List.any_eq_true, decide_eq_true_eq, not_exists, not_and] at hany
    have : m.lookup k' = none :=
      List.lookup_eq_none_iff.mpr fun p hp => bne_iff_ne.mpr (Ne.symm (hany p hp))
    simp [List.lookup_append, this]
  · simp [List.lookup_append, List.lookup_cons, beq_eq_false_iff_ne.mpr hk]

def Written (leaf : TestFields → Prop) (t t' : List (String × TestFields)) (k : String) : Prop :=
  (t'.lookup k = t.lookup k ∧ ∀ f, ¬leaf f) ∨ ∃ f, leaf f ∧ t'.lookup k = some f

theorem Written.congr {leaf leaf' : TestFields → Prop} (h : ∀ f, leaf f ↔ leaf' f)
    {t t' : List (String × TestFields)} {k : String} (hw : Written leaf t t' k) :
    Written leaf' t t' k :=
  hw.imp (fun ⟨hl, hno⟩ => ⟨hl, fun f hf => hno f ((h f).mpr hf)⟩)
    fun ⟨f, hf, hl⟩ => ⟨f, (h f).mp hf, hl⟩

theorem Written.trans {leaf leaf' : TestFields → Prop} {t t' t'' : List (String × TestFields)}
    {k : String} (h₁ : Written leaf t t' k) (h₂ : Written leaf' t' t'' k) :
    Written (fun f => leaf f ∨ leaf' f) t t'' k := by
  rcases h₂ with ⟨hl₂, hno₂⟩ | ⟨f, hf, hl₂⟩
  · rcases h₁ with ⟨hl₁, hno₁⟩ | ⟨f, hf, hl₁⟩
    · exact .inl ⟨hl₂.trans hl₁, fun f hf => hf.elim (hno₁ f) (hno₂ f)⟩
    · exact .inr ⟨f, .inl hf, hl₂.trans hl₁⟩
  · exact .inr ⟨f, .inr hf, hl₂⟩

theorem written_mapSet (t : List (String × TestFields)) (testPath : String) (fields : TestFields)
    (k : String) : Written (fun f => k = testPath ∧ f = fields) t (mapSet t testPath fields) k := by
  rw [Written, lookup_mapSet]
  by_cases hk : k = testPath
  · exact .inr ⟨fields, ⟨hk, rfl⟩, if_pos hk⟩
  · exact .inl ⟨if_neg hk, fun _ h => hk h.1⟩

section Leaves

variable {Raw : Type} (L : JsonLib Raw) (r : JSONTestResults Raw)

mutual
inductive LeafAt : String → Raw → String → TestFields → Prop
  | mk {curPath curNode maybeNode key value testPath f} : L.toMap curNode = .ok maybeNode →
      (key, value) ∈ maybeNode → MemberLeaf curPath key value testPath f →
      LeafAt curPath curNode testPath f

inductive MemberLeaf : String → String → Raw → String → TestFields → Prop
  | leaf {curPath key value testPath} : memberPath L r curPath key = .ok testPath →
      (L.toFields value).isLeaf = true → MemberLeaf curPath key value testPath (L.toFields value)
  | node {curPath key value nodePath testPath f} : memberPath L r curPath key = .ok nodePath →
      (L.toFields value).isLeaf = false → LeafAt nodePath value testPath f →
      MemberLeaf curPath key value testPath f
end

variable {L r}

theorem leafAt_iff {curPath : String} {curNode : Raw} {maybeNode : List (String × Raw)}
    (h : L.toMap curNode = .ok maybeNode) {testPath : String} {f : TestFields} :
    LeafAt L r curPath curNode testPath f ↔
      ∃ kv ∈ maybeNode, MemberLeaf L r curPath kv.1 kv.2 testPath f := by
  refine ⟨fun ⟨h', hmem, hl⟩ => ?_, fun ⟨⟨_, _⟩, hmem, hl⟩ => .mk h hmem hl⟩
  rw [h] at h'
  cases h'
  exact ⟨_, hmem, hl⟩

theorem memberLeaf_iff_of_leaf {curPath key : String} {value : Raw} {testPath : String}
    (hp : memberPath L r curPath key = .ok testPath) (hl : (L.toFields value).isLeaf = true)
    {k : String} {f : TestFields} :
    MemberLeaf L r curPath key value k f ↔ k = testPath ∧ f = L.toFields value := by
  refine ⟨?_, fun ⟨hk, hf⟩ => hk ▸ hf ▸ .leaf hp hl⟩
  rintro (⟨hp', -⟩ | ⟨-, hl', -⟩)
  · rw [hp] at hp'
    cases hp'
    exact ⟨rfl, rfl⟩
  · rw [hl] at hl'
    cases hl'

theorem memberLeaf_iff_of_node {curPath key : String} {value : Raw} {nodePath : String}
    (hp : memberPath L r curPath key = .ok nodePath) (hl : (L.toFields value).isLeaf = false)
    {k : String} {f : TestFields} :
    MemberLeaf L r curPath key value k f ↔ LeafAt L r nodePath value k f := by
  refine ⟨?_, .node hp hl⟩
  rintro (⟨-, hl'⟩ | ⟨hp', -, hn⟩)
  · rw [hl] at hl'
    cases hl'
  · rw [hp] at hp'
    cases hp'
    exact hn

theorem memberLeaf_cons_iff {curPath k : String} {key : String} {value : Raw}
    {rest : List (String × Raw)} {f : TestFields} :
    (∃ kv ∈ (key, value) :: rest, MemberLeaf L r curPath kv.1 kv.2 k f) ↔
      MemberLeaf L r curPath key value k f ∨ ∃ kv ∈ rest, MemberLeaf L r curPath kv.1 kv.2 k f := by
  simp only [List.mem_cons, exists_eq_or_imp]

theorem ConvertMembers.written {curPath : String} {order : List (String × Raw)} {t t'}
    (h : ConvertMembers L r curPath order t (.ok t')) (k : String) :
    Written (fun f => ∃ kv ∈ order, MemberLeaf L r curPath kv.1 kv.2 k f) t t' k := by
  refine @ConvertMembers.rec _ L r
    (fun curPath curNode t res _ => ∀ t', res = .ok t' → ∀ k,
      Written (LeafAt L r curPath curNode k) t t' k)
    (fun curPath order t res _ => ∀ t', res = .ok t' → ∀ k,
      Written (fun f => ∃ kv ∈ order, MemberLeaf L r curPath kv.1 kv.2 k f) t t' k)
    ?notMap ?range ?done ?pathError ?leaf ?nodeError ?node _ _ _ _ h t' rfl k
  case notMap => exact fun _ _ ht => nomatch ht
  case range =>
    exact fun h hperm _ ih t' ht k => (ih t' ht k).congr fun f => by
      rw [leafAt_iff h]
      exact exists_congr fun kv => and_congr_left' hperm.mem_iff
  case done =>
    exact fun t' ht k => .inl ⟨by cases ht; rfl, fun _ ⟨_, hkv, _⟩ => nomatch hkv⟩
  case pathError => exact fun _ _ ht => nomatch ht
  case leaf =>
    exact fun hp hl _ ih t' ht k => ((written_mapSet _ _ _ k).trans (ih t' ht k)).congr fun f => by
      rw [memberLeaf_cons_iff, memberLeaf_iff_of_leaf hp hl]
  case nodeError => exact fun _ _ _ _ _ ht => nomatch ht
  case node =>
    exact fun hp hl _ _ ih₁ ih₂ t' ht k => ((ih₁ _ rfl k).trans (ih₂ t' ht k)).congr fun f => by
      rw [memberLeaf_cons_iff, memberLeaf_iff_of_node hp hl]

theorem ConvertTests.written {curPath : String} {curNode : Raw} {t t'}
    (h : ConvertTests L r curPath curNode t (.ok t')) (k : String) :
    Written (LeafAt L r curPath curNode k) t t' k := by
  cases h with
  | range h hperm hrun =>
    refine (hrun.written k).congr fun f => ?_
    rw [leafAt_iff h]
    exact exists_congr fun kv => and_congr_left' hperm.mem_iff

theorem ConvertMembers.writes {curPath : String} {order : List (String × Raw)} {t t'}
    (h : ConvertMembers L r curPath order t (.ok t')) :
    ∃ ws : List (String × TestFields), t' = ws.foldl (fun m w => mapSet m w.1 w.2) t := by
  refine @ConvertMembers.rec _ L r
    (fun _ _ t res _ => ∀ t', res = .ok t' →
      ∃ ws : List (String × TestFields), t' = ws.foldl (fun m w => mapSet m w.1 w.2) t)
    (fun _ _ t res _ => ∀ t', res = .ok t' →
      ∃ ws : List (String × TestFields), t' = ws.foldl (fun m w => mapSet m w.1 w.2) t)
    ?notMap ?range ?done ?pathError ?leaf ?nodeError ?node _ _ _ _ h t' rfl
  case notMap => exact fun _ _ ht => nomatch ht
  case range => exact fun _ _ _ ih => ih
  case done => exact fun t' ht => ⟨[], by cases ht; rfl⟩
  case pathError => exact fun _ _ ht => nomatch ht
  case leaf =>
    exact fun _ _ _ ih t' ht => let ⟨ws, h⟩ := ih t' ht; ⟨(_, _) :: ws, h⟩
  case nodeError => exact fun _ _ _ _ _ ht => nomatch ht
  case node =>
    exact fun _ _ _ _ ih₁ ih₂ t' ht => by
      obtain ⟨ws₁, rfl⟩ := ih₁ _ rfl
      obtain ⟨ws₂, rfl⟩ := ih₂ t' ht
      exact ⟨ws₁ ++ ws₂, (List.foldl_append _ _ _ _).symm⟩

theorem ConvertTests.nodup {curPath : String} {curNode : Raw} {t t'}
    (h : ConvertTests L r curPath curNode t (.ok t')) (ht : (t.map Prod.fst).Nodup) :
    (t'.map Prod.fst).Nodup := by
  cases h with
  | range _ _ hrun =>
    obtain ⟨ws, rfl⟩ := hrun.writes
    exact foldl_mapSet_nodup ws ht

theorem convertFromJSON_tests {r' : JSONTestResults Raw} (h : r.ConvertFromJSON L (.ok r'))
    (k : String) :
    (r'.tests.lookup k = r.tests.lookup k ∧ ∀ f, ¬LeafAt L r "" r.testsRaw k f) ∨
    ∃ f, LeafAt L r "" r.testsRaw k f ∧ r'.tests.lookup k = some f := by
  obtain ⟨_ | t, hrun, ht⟩ := h
  · cases ht
  · cases ht
    exact hrun.written k

end Leaves

theorem convertFromJSON_tests_colliding :
    collidingResults.ConvertFromJSON fixtureLib (.ok (collidingRun "FAIL")) ∧
    (((collidingRun "FAIL").tests.lookup "a/b" = collidingResults.tests.lookup "a/b" ∧
        ∀ f, ¬LeafAt fixtureLib collidingResults "" collidingResults.testsRaw "a/b" f) ∨
      ∃ f, LeafAt fixtureLib collidingResults "" collidingResults.testsRaw "a/b" f ∧
        (collidingRun "FAIL").tests.lookup "a/b" = some f) :=
  ⟨collidingResults_text_order, convertFromJSON_tests collidingResults_text_order "a/b"⟩

/-! ## Runs that agree -/

section Agree

variable (env : Env) {Raw : Type} (L : JsonLib Raw) (r : JSONTestResults Raw)

theorem testsToProtos_congr {t₁ t₂ : List (String × TestFields)}
    (h : ∀ k, t₁.lookup k = t₂.lookup k) (testPathPrefix : String) :
    ∀ (names : List String) (outputs : Outputs),
      ({ r with tests := t₁ }).testsToProtos env testPathPrefix names outputs =
        ({ r with tests := t₂ }).testsToProtos env testPathPrefix names outputs
  | [], _ => rfl
  | name :: names, outputs => by
    simp only [JSONTestResults.testsToProtos, h name, testsToProtos_congr h testPathPrefix names]

theorem sortStrings_keys_eq {t₁ t₂ : List (String × TestFields)} (h₁ : (t₁.map Prod.fst).Nodup)
    (h₂ : (t₂.map Prod.fst).Nodup) (h : ∀ k, t₁.lookup k = t₂.lookup k) :
    sortStrings (t₁.map Prod.fst) = sortStrings (t₂.map Prod.fst) := by
  have hmem : ∀ {t : List (String × TestFields)} {k : String},
      k ∈ t.map Prod.fst ↔ (t.lookup k).isSome := by
    intro t k
    simp only [List.mem_map, List.lookup_isSome_iff, beq_iff_eq]
    exact ⟨fun ⟨p, hp, e⟩ => ⟨p, hp, e.symm⟩, fun ⟨p, hp, e⟩ => ⟨p, hp, e.symm⟩⟩
  have hperm : (t₁.map Prod.fst).Perm (t₂.map Prod.fst) :=
    (List.perm_ext_iff_of_nodup h₁ h₂).mpr fun k => by rw [hmem, hmem, h]
  exact List.eq_of_perm_of_sorted
    ((List.perm_insertionSort _ _).trans (hperm.trans (List.perm_insertionSort _ _).symm))
    (List.sorted_insertionSort _ _) (List.sorted_insertionSort _ _)

theorem toProtos_congr {t₁ t₂ : List (String × TestFields)} (h₁ : (t₁.map Prod.fst).Nodup)
    (h₂ : (t₂.map Prod.fst).Nodup) (h : ∀ k, t₁.lookup k = t₂.lookup k) (testPathPrefix : String)
    (inv : Invocation) (outputs : Outputs) :
    ({ r with tests := t₁ }).toProtos env L testPathPrefix inv outputs =
      ({ r with tests := t₂ }).toProtos env L testPathPrefix inv outputs := by
  unfold JSONTestResults.toProtos
  dsimp only
  rw [sortStrings_keys_eq h₁ h₂ h, testsToProtos_congr env r h]
  rfl


theorem convertFromJSON_agree_without_collisions {r₁ r₂ : JSONTestResults Raw}
    (h₁ : r.ConvertFromJSON L (.ok r₁)) (h₂ : r.ConvertFromJSON L (.ok r₂))
    (hdecode : (r.tests.map Prod.fst).Nodup)
    (hpaths : ∀ k f f', LeafAt L r "" r.testsRaw k f → LeafAt L r "" r.testsRaw k f' → f = f') :
    (∀ k, r₁.tests.lookup k = r₂.tests.lookup k) ∧
    ∀ testPathPrefix inv outputs,
      r₁.toProtos env L testPathPrefix inv outputs =
        r₂.toProtos env L testPathPrefix inv outputs := by
  obtain ⟨_ | t₁, hrun₁, e₁⟩ := h₁
  · cases e₁
  obtain ⟨_ | t₂, hrun₂, e₂⟩ := h₂
  · cases e₂
  cases e₁
  cases e₂
  have hl : ∀ k, t₁.lookup k = t₂.lookup k := fun k => by
    rcases hrun₁.written k with ⟨e₁, hno₁⟩ | ⟨f, hf, e₁⟩ <;>
      rcases hrun₂.written k with ⟨e₂, hno₂⟩ | ⟨f', hf', e₂⟩
    · rw [e₁, e₂]
    · exact absurd hf' (hno₁ f')
    · exact absurd hf (hno₂ f)
    · rw [e₁, e₂, hpaths k f f' hf hf']
  exact ⟨hl, toProtos_congr env L r (hrun₁.nodup hdecode) (hrun₂.nodup hdecode) hl⟩

end Agree

def disjointResults : JSONTestResults Json :=
  ⟨false, "", .obj [("a", leafJson "PASS"), ("b", .obj [("c", leafJson "FAIL")])], [], 3, "", []⟩

theorem disjointResults_leafAt {k : String} {f : TestFields}
    (h : LeafAt fixtureLib disjointResults "" disjointResults.testsRaw k f) :
    (k = "a" ∧ f = fixtureLib.toFields (leafJson "PASS")) ∨
      (k = "b/c" ∧ f = fixtureLib.toFields (leafJson "FAIL")) := by
  have hroot : fixtureLib.toMap disjointResults.testsRaw =
      .ok [("a", leafJson "PASS"), ("b", .obj [("c", leafJson "FAIL")])] := rfl
  have hb : fixtureLib.toMap (.obj [("c", leafJson "FAIL")]) = .ok [("c", leafJson "FAIL")] := rfl
  obtain ⟨kv, hkv, hl⟩ := (leafAt_iff hroot).mp h
  rcases List.mem_pair.mp hkv with rfl | rfl
  · exact .inl ((memberLeaf_iff_of_leaf (by rfl) (by rfl)).mp hl)
  · obtain ⟨kv, hkv, hl⟩ := (leafAt_iff hb).mp ((memberLeaf_iff_of_node (by rfl) (by rfl)).mp hl)
    obtain rfl := List.mem_singleton.mp hkv
    exact .inr ((memberLeaf_iff_of_leaf (by rfl) (by rfl)).mp hl)

theorem convertFromJSON_agree_disjoint :
    disjointResults.ConvertFromJSON fixtureLib (.ok { disjointResults with
      tests := [("a", fixtureLib.toFields (leafJson "PASS")),
        ("b/c", fixtureLib.toFields (leafJson "FAIL"))] }) ∧
    disjointResults.ConvertFromJSON fixtureLib (.ok { disjointResults with
      tests := [("b/c", fixtureLib.toFields (leafJson "FAIL")),
        ("a", fixtureLib.toFields (leafJson "PASS"))] }) ∧
    (disjointResults.tests.map Prod.fst).Nodup ∧
    (∀ k f f', LeafAt fixtureLib disjointResults "" disjointResults.testsRaw k f →
      LeafAt fixtureLib disjointResults "" disjointResults.testsRaw k f' → f = f') ∧
    (∀ k, List.lookup k [("a", fixtureLib.toFields (leafJson "PASS")),
        ("b/c", fixtureLib.toFields (leafJson "FAIL"))] =
      List.lookup k [("b/c", fixtureLib.toFields (leafJson "FAIL")),
        ("a", fixtureLib.toFields (leafJson "PASS"))]) ∧
    ∀ testPathPrefix inv outputs,
      ({ disjointResults with tests := [("a", fixtureLib.toFields (leafJson "PASS")),
          ("b/c", fixtureLib.toFields (leafJson "FAIL"))] }).toProtos plainEnv fixtureLib
          testPathPrefix inv outputs =
        ({ disjointResults with tests := [("b/c", fixtureLib.toFields (leafJson "FAIL")),
          ("a", fixtureLib.toFields (leafJson "PASS"))] }).toProtos plainEnv fixtureLib
          testPathPrefix inv outputs :=
  have h₁ : disjointResults.ConvertFromJSON fixtureLib (.ok { disjointResults with
      tests := [("a", fixtureLib.toFields (leafJson "PASS")),
        ("b/c", fixtureLib.toFields (leafJson "FAIL"))] }) :=
    ⟨_, .range rfl (.refl _) <| .leaf rfl rfl <|
      .node rfl rfl (.range rfl (.refl _) (.leaf rfl rfl .done)) .done, rfl⟩
  have h₂ : disjointResults.ConvertFromJSON fixtureLib (.ok { disjointResults with
      tests := [("b/c", fixtureLib.toFields (leafJson "FAIL")),
        ("a", fixtureLib.toFields (leafJson "PASS"))] }) :=
    ⟨_, .range rfl (.swap _ _ _) <|
      .node rfl rfl (.range rfl (.refl _) (.leaf rfl rfl .done)) <| .leaf rfl rfl .done, rfl⟩
  have hpaths : ∀ k f f', LeafAt fixtureLib disjointResults "" disjointResults.testsRaw k f →
      LeafAt fixtureLib disjointResults "" disjointResults.testsRaw k f' → f = f' :=
    fun k f f' h h' => by
      rcases disjointResults_leafAt h with ⟨rfl, rfl⟩ | ⟨rfl, rfl⟩ <;>
        rcases disjointResults_leafAt h' with ⟨he, rfl⟩ | ⟨he, rfl⟩ <;>
        first | rfl | exact absurd he (by decide)
  ⟨h₁, h₂, List.nodup_nil, hpaths,
    convertFromJSON_agree_without_collisions plainEnv fixtureLib disjointResults h₁ h₂
      List.nodup_nil hpaths⟩

end Luci.ResultDB.Formats
