import Mathlib.Data.List.Sort
import Luci.Text

/-!
# Related builds of a build page

`getRelatedBuilds` searches Buildbucket once for each buildset of a build, skipping the
`commit/git/` ones, with the searches running in parallel. It keeps, over the responses in
buildset order, the first build of each ID, and sorts what it kept by ID with `sort.Slice`, which
is not stable. A run in which a search fails returns the errors in the order the searches finish.

Every successful run returns the same table: the first build of each ID among the responses, in
strictly increasing ID order.
-/

namespace Luci.Milo.Buildbucket

/-- `buildbucketpb.SearchBuildsRequest`, with the fields `searchBuildset` sets. -/
structure SearchBuildsRequest where
  tags : List (String × String)
  fields : List String
  pageSize : Int
  deriving DecidableEq, Repr

def summaryBuildsMask : List String :=
  ["builds.*.id", "builds.*.builder", "builds.*.number", "builds.*.create_time",
    "builds.*.start_time", "builds.*.end_time", "builds.*.update_time", "builds.*.status",
    "builds.*.summary_markdown"]

/-- `searchBuildset`. -/
def searchBuildset (buildset : String) (fields : List String) : SearchBuildsRequest :=
  ⟨[("buildset", buildset)], fields, 1000⟩

/-- `ui.Build`: a build and the time the page is rendered at. -/
structure UIBuild (B : Type) where
  build : B
  now : Int
  deriving DecidableEq, Repr

section Related

-- Builds are `buildbucketpb.Build` messages, of which `getRelatedBuilds` reads the ID.
variable {B : Type} (id : B → Int)

/-- The buildsets `getRelatedBuilds` searches: those of `protoutil.BuildSets(b)` for which
`strings.HasPrefix(buildset, "commit/git/")` is false. -/
def relatedBuildsets (buildSets : List String) : List String :=
  buildSets.filter fun s => !"commit/git/".toList.isPrefixOf s.toList

/-- One pass of the inner loop of the dedupe: `acc.1` is the set `seen`, `acc.2` the result. -/
def dedupeStep (now : Int) (acc : List Int × List (UIBuild B)) (rb : B) :
    List Int × List (UIBuild B) :=
  if id rb ∈ acc.1 then acc else (id rb :: acc.1, acc.2 ++ [⟨rb, now⟩])

/-- The two loops of the dedupe, over the responses in buildset order. -/
def dedupe (now : Int) (resps : List (List B)) : List (UIBuild B) :=
  (resps.foldl (fun acc resp => resp.foldl (dedupeStep id now) acc) ([], [])).2

/-- `sort.Slice(result, by ID)`: a permutation in which no build has a smaller ID than one
before it. -/
def SortSlice (result sorted : List (UIBuild B)) : Prop :=
  sorted.Perm result ∧ sorted.Sorted fun a b => ¬id b.build < id a.build

variable {id} (search : SearchBuildsRequest → Except String (List B))

/-- The responses of the searches, when every one succeeded. -/
def responses (bs : List String) : Except String (List (List B)) :=
  bs.mapM fun s => search (searchBuildset s summaryBuildsMask)

/-- The errors of the searches that failed, in buildset order. -/
def searchErrors (bs : List String) : List String :=
  bs.filterMap fun s =>
    match search (searchBuildset s summaryBuildsMask) with
    | .error e => some e
    | .ok _ => none

variable (id)

/-- A run of `getRelatedBuilds(c, now, client, b)`, where `buildSets` is `protoutil.BuildSets(b)`
and `search` answers `client.SearchBuilds`. `parallel.WorkPool` runs every search and returns the
errors in the order the searches finish. -/
inductive GetRelatedBuilds (now : Int) (buildSets : List String) :
    Except (List String) (List (UIBuild B)) → Prop
  | noBuildset : relatedBuildsets buildSets = [] → GetRelatedBuilds now buildSets (.ok [])
  | failed {errs} : relatedBuildsets buildSets ≠ [] →
      searchErrors search (relatedBuildsets buildSets) ≠ [] →
      errs.Perm (searchErrors search (relatedBuildsets buildSets)) →
      GetRelatedBuilds now buildSets (.error errs)
  | ok {resps sorted} : relatedBuildsets buildSets ≠ [] →
      responses search (relatedBuildsets buildSets) = .ok resps →
      SortSlice id (dedupe id now resps) sorted → GetRelatedBuilds now buildSets (.ok sorted)

def DedupeInv (acc : List Int × List (UIBuild B)) : Prop :=
  (acc.2.map fun u => id u.build).Nodup ∧ ∀ i, i ∈ acc.1 ↔ i ∈ acc.2.map fun u => id u.build

variable {id search}

/-! ## The dedupe -/

theorem dedupeStep_inv {now : Int} {acc : List Int × List (UIBuild B)} (h : DedupeInv id acc)
    (rb : B) : DedupeInv id (dedupeStep id now acc rb) := by
  unfold dedupeStep
  split_ifs with hseen
  · exact h
  · obtain ⟨hnodup, hmem⟩ := h
    refine ⟨?_, fun i => ?_⟩
    · rw [List.map_append, List.nodup_append]
      exact ⟨hnodup, List.nodup_singleton _, by simpa [← hmem] using hseen⟩
    · simp [hmem, or_comm]

theorem foldl_dedupeStep_inv {now : Int} (l : List B) {acc : List Int × List (UIBuild B)}
    (h : DedupeInv id acc) : DedupeInv id (l.foldl (dedupeStep id now) acc) := by
  induction l generalizing acc with
  | nil => exact h
  | cons rb l ih => exact ih (dedupeStep_inv h rb)

theorem mem_foldl_dedupeStep {now : Int} (l : List B) (acc : List Int × List (UIBuild B))
    (u : UIBuild B) :
    u ∈ (l.foldl (dedupeStep id now) acc).2 ↔
      u ∈ acc.2 ∨ u.now = now ∧ id u.build ∉ acc.1 ∧
        l.find? (fun b => id b == id u.build) = some u.build := by
  induction l generalizing acc with
  | nil => simp
  | cons rb l ih =>
    rw [List.foldl_cons, ih, dedupeStep]
    by_cases hid : id rb = id u.build
    · have hfind : (rb :: l).find? (fun b => id b == id u.build) = some rb :=
        List.find?_cons_of_pos _ (by simp [hid])
      by_cases hseen : id rb ∈ acc.1
      · simp [hseen, hfind, ← hid]
      · have hu : u = ⟨rb, now⟩ ↔ u.now = now ∧ rb = u.build := by
          cases u; simp [eq_comm, and_comm]
        have hnew : id u.build ∉ acc.1 := hid ▸ hseen
        simp only [hseen, if_false, List.mem_append, List.mem_singleton, List.mem_cons, hid,
          not_true, false_and, or_false, hfind, Option.some.injEq, hnew, not_false_eq_true,
          true_and, hu, List.not_mem_nil, and_false]
    · have hfind : (rb :: l).find? (fun b => id b == id u.build) =
          l.find? (fun b => id b == id u.build) :=
        List.find?_cons_of_neg _ (by simpa using hid)
      have hu : u ≠ ⟨rb, now⟩ := fun he => hid (by rw [he])
      by_cases hseen : id rb ∈ acc.1 <;> simp [hseen, hfind, hu, Ne.symm hid]

theorem dedupe_eq (now : Int) (resps : List (List B)) :
    dedupe id now resps = (resps.flatten.foldl (dedupeStep id now) ([], [])).2 := by
  rw [dedupe, List.foldl_flatten]

theorem dedupe_spec (now : Int) (resps : List (List B)) :
    ((dedupe id now resps).map fun u => id u.build).Nodup ∧
      ∀ u, u ∈ dedupe id now resps ↔
        u.now = now ∧ resps.flatten.find? (fun b => id b == id u.build) = some u.build := by
  have h₀ : DedupeInv id (([], []) : List Int × List (UIBuild B)) := ⟨.nil, by simp⟩
  rw [dedupe_eq]
  exact ⟨(foldl_dedupeStep_inv _ h₀).1, fun u => by
    simpa using mem_foldl_dedupeStep resps.flatten ([], []) u⟩

/-! ## The sort -/

theorem SortSlice.ids_lt {l sorted : List (UIBuild B)} (h : SortSlice id l sorted)
    (hl : (l.map fun u => id u.build).Nodup) : (sorted.map fun u => id u.build).Sorted (· < ·) := by
  obtain ⟨hperm, hsorted⟩ := h
  refine List.Sorted.lt_of_le ?_ ((hperm.map _).nodup_iff.mpr hl)
  exact List.pairwise_map.mpr (hsorted.imp fun h => not_lt.mp h)

theorem eq_of_ids_lt {l₁ l₂ : List (UIBuild B)} (h₁ : (l₁.map fun u => id u.build).Sorted (· < ·))
    (h₂ : (l₂.map fun u => id u.build).Sorted (· < ·)) (hmem : ∀ u, u ∈ l₁ ↔ u ∈ l₂) : l₁ = l₂ := by
  have : IsAntisymm (UIBuild B) fun a b => id a.build < id b.build :=
    ⟨fun _ _ h h' => absurd (h.trans h') (lt_irrefl _)⟩
  have hs₁ := List.pairwise_map.mp h₁
  have hs₂ := List.pairwise_map.mp h₂
  exact List.eq_of_perm_of_sorted
    ((List.perm_ext_iff_of_nodup (h₁.nodup.of_map _) (h₂.nodup.of_map _)).mpr hmem) hs₁ hs₂

/-! ## The runs -/

theorem responses_eq_ok_iff {bs : List String} :
    (∃ resps, responses search bs = .ok resps) ↔ searchErrors search bs = [] := by
  induction bs with
  | nil => exact iff_of_true ⟨[], rfl⟩ rfl
  | cons s bs ih =>
    simp only [responses, searchErrors, List.mapM_cons, List.filterMap_cons] at ih ⊢
    cases search (searchBuildset s summaryBuildsMask) with
    | error e => simp [bind, Except.bind]
    | ok r =>
      simp only [bind, Except.bind, ← ih]
      cases List.mapM (fun s => search (searchBuildset s summaryBuildsMask)) bs <;>
        simp [pure, Except.pure]

theorem GetRelatedBuilds.exists_run (now : Int) (buildSets : List String) :
    ∃ out, GetRelatedBuilds id search now buildSets out := by
  by_cases hbs : relatedBuildsets buildSets = []
  · exact ⟨_, .noBuildset hbs⟩
  by_cases herr : searchErrors search (relatedBuildsets buildSets) = []
  · obtain ⟨resps, hresps⟩ := responses_eq_ok_iff.mpr herr
    let byId : UIBuild B → UIBuild B → Prop := fun a b => ¬id b.build < id a.build
    have : IsTotal (UIBuild B) byId := ⟨fun a b => by simp only [byId]; omega⟩
    have : IsTrans (UIBuild B) byId := ⟨fun a b c => by simp only [byId]; omega⟩
    exact ⟨_, .ok hbs hresps ⟨List.perm_insertionSort byId _, List.sorted_insertionSort byId _⟩⟩
  · exact ⟨_, .failed hbs herr (.refl _)⟩

theorem GetRelatedBuilds.spec {now : Int} {buildSets : List String} {result : List (UIBuild B)}
    (h : GetRelatedBuilds id search now buildSets (.ok result)) :
    ∃ resps, responses search (relatedBuildsets buildSets) = .ok resps ∧
      (result.map fun u => id u.build).Sorted (· < ·) ∧
      ∀ u, u ∈ result ↔
        u.now = now ∧ resps.flatten.find? (fun b => id b == id u.build) = some u.build := by
  cases h with
  | noBuildset hbs => exact ⟨[], by rw [hbs]; rfl, .nil, by simp⟩
  | ok _ hresps hsort =>
    obtain ⟨hnodup, hmem⟩ := @dedupe_spec _ id now _
    exact ⟨_, hresps, hsort.ids_lt hnodup, fun u => hsort.1.mem_iff.trans (hmem u)⟩

theorem getRelatedBuilds_ok {now : Int} {buildSets : List String} {result : List (UIBuild B)}
    (h : GetRelatedBuilds id search now buildSets (.ok result)) :
    ∃ resps, responses search (relatedBuildsets buildSets) = .ok resps ∧
      (result.map fun u => id u.build).Sorted (· < ·) ∧
      (∀ u, u ∈ result ↔
        u.now = now ∧ resps.flatten.find? (fun b => id b == id u.build) = some u.build) ∧
      ∀ result', GetRelatedBuilds id search now buildSets (.ok result') → result' = result := by
  obtain ⟨resps, hresps, hsorted, hmem⟩ := h.spec
  refine ⟨resps, hresps, hsorted, hmem, fun result' h' => ?_⟩
  obtain ⟨resps', hresps', hsorted', hmem'⟩ := h'.spec
  obtain rfl : resps' = resps := Except.ok.inj (hresps'.symm.trans hresps)
  exact eq_of_ids_lt hsorted' hsorted fun u => (hmem' u).trans (hmem u).symm

end Related

def sampleSearch (r : SearchBuildsRequest) : Except String (List (Int × String)) :=
  if r.tags = [("buildset", "commit/gitiles/chromium.googlesource.com/chromium/src/+/f00d")] then
    .ok [(3, "linux"), (1, "mac")]
  else .ok [(1, "mac-retry"), (2, "win")]

def sampleBuildSets : List String :=
  ["commit/gitiles/chromium.googlesource.com/chromium/src/+/f00d", "commit/git/f00d",
    "patch/gerrit/chromium-review.googlesource.com/1/2"]

theorem getRelatedBuilds_ok_sample :
    GetRelatedBuilds Prod.fst sampleSearch 0 sampleBuildSets
        (.ok [⟨(1, "mac"), 0⟩, ⟨(2, "win"), 0⟩, ⟨(3, "linux"), 0⟩]) ∧
      ∀ result', GetRelatedBuilds Prod.fst sampleSearch 0 sampleBuildSets (.ok result') →
        result' = [⟨(1, "mac"), 0⟩, ⟨(2, "win"), 0⟩, ⟨(3, "linux"), 0⟩] :=
  have h : GetRelatedBuilds Prod.fst sampleSearch 0 sampleBuildSets
      (.ok [⟨(1, "mac"), 0⟩, ⟨(2, "win"), 0⟩, ⟨(3, "linux"), 0⟩]) :=
    .ok (by decide) rfl ⟨by decide, by decide⟩
  ⟨h, by obtain ⟨-, -, -, -, hunique⟩ := getRelatedBuilds_ok h; exact hunique⟩

/-! ## Build addresses -/

/-- `buildbucketpb.BuilderID`. -/
@[ext] structure BuilderID where
  project : String
  bucket : String
  builder : String
  deriving DecidableEq, Repr

/-- The fields of `buildbucketpb.Build` that `BuildAddress` reads. -/
structure Build where
  id : Int
  builder : BuilderID
  number : Int
  deriving DecidableEq, Repr

/-- `strconv.FormatInt(x, 10)`. -/
def formatInt (x : Int) : String := toString x

/-- `BuildAddress`: the key of the `BuildSummary` entity of a build. -/
def buildAddress : Option Build → String
  | none => ""
  | some build =>
    let num := if build.number ≠ 0 then formatInt build.number else formatInt build.id
    let b := build.builder
    "luci." ++ b.project ++ "." ++ b.bucket ++ "/" ++ b.builder ++ "/" ++ num

/-- The number `BuildAddress` writes: the build number, or the ID of a build without one. -/
def Build.numOrId (b : Build) : Int := if b.number ≠ 0 then b.number else b.id

def BuilderID.Valid (b : BuilderID) : Prop :=
  '.' ∉ b.project.data ∧ '/' ∉ b.bucket.data ∧ '/' ∉ b.builder.data

instance (b : BuilderID) : Decidable b.Valid := inferInstanceAs (Decidable (_ ∧ _ ∧ _))

theorem formatInt_injective : Function.Injective formatInt := fun _ _ h => toString_int_injective h

theorem buildAddress_data (b : Build) : (buildAddress (some b)).data =
    "luci.".data ++ b.builder.project.data ++ '.' :: (b.builder.bucket.data ++ '/' ::
      (b.builder.builder.data ++ '/' :: (formatInt b.numOrId).data)) := by
  have : (if b.number ≠ 0 then formatInt b.number else formatInt b.id) = formatInt b.numOrId :=
    (apply_ite formatInt _ _ _).symm
  simp only [buildAddress, this, String.data_append, List.append_assoc]
  rfl

theorem buildAddress_eq_iff {b b' : Build} (hb : b.builder.Valid) (hb' : b'.builder.Valid) :
    buildAddress (some b) = buildAddress (some b') ↔
      b.builder = b'.builder ∧ b.numOrId = b'.numOrId := by
  constructor
  · intro h
    replace h := congrArg String.data h
    rw [buildAddress_data, buildAddress_data, List.append_assoc, List.append_assoc] at h
    obtain ⟨hp, h⟩ := eq_of_append_cons_eq hb.1 hb'.1 (List.append_cancel_left h)
    obtain ⟨hk, h⟩ := eq_of_append_cons_eq hb.2.1 hb'.2.1 h
    obtain ⟨hr, h⟩ := eq_of_append_cons_eq hb.2.2 hb'.2.2 h
    exact ⟨BuilderID.ext (String.ext hp) (String.ext hk) (String.ext hr),
      formatInt_injective (String.ext h)⟩
  · rintro ⟨h₁, h₂⟩
    exact String.ext (by rw [buildAddress_data, buildAddress_data, h₁, h₂])

theorem buildAddress_eq_numbered_unnumbered :
    BuilderID.Valid ⟨"chromium", "try", "linux-rel"⟩ ∧
      buildAddress (some ⟨8921929399447296000, ⟨"chromium", "try", "linux-rel"⟩, 5⟩) =
        buildAddress (some ⟨5, ⟨"chromium", "try", "linux-rel"⟩, 0⟩) :=
  ⟨by decide, (buildAddress_eq_iff (by decide) (by decide)).mpr ⟨rfl, rfl⟩⟩

/-! ## Builder lookups -/

/-- The gRPC codes `GetBuilderID` tells apart among those of a failed `GetBuild`. -/
inductive Code
  | notFound
  | permissionDenied
  | other (code : Nat)
  deriving DecidableEq, Repr

def errNotFound : String := "Build not found"

def errNotLoggedIn : String := "not logged in"

/-- `GetBuilderID`, given what `getBuildbucketClient` and `client.GetBuild` return and whether the
caller is anonymous: the builder, the number and the error it returns. -/
def getBuilderID (client : Except String Unit) (getBuild : Except (Code × String) (BuilderID × Int))
    (anonymous : Bool) : Option BuilderID × Int × Option String :=
  match client, getBuild with
  | .error e, _ => (none, 0, some e)
  | .ok (), .ok (builder, number) => (some builder, number, none)
  | .ok (), .error (.notFound, _) =>
    if anonymous then (none, 0, some errNotLoggedIn) else (none, 0, some errNotFound)
  | .ok (), .error (.permissionDenied, _) => (none, 0, some errNotFound)
  | .ok (), .error (.other _, e) => (none, 0, some e)

theorem getBuilderID_notFound_permissionDenied (client : Except String Unit) (m m' : String)
    (anonymous : Bool) :
    getBuilderID client (.error (.notFound, m)) anonymous =
      if anonymous && client.isOk then (none, 0, some errNotLoggedIn)
      else getBuilderID client (.error (.permissionDenied, m')) anonymous := by
  rcases client with e | ⟨⟩ <;> cases anonymous <;> rfl

/-! ## The build page -/

def fullBuildMask : List String :=
  ["id", "builder", "number", "created_by", "canceled_by", "create_time", "start_time", "end_time",
    "update_time", "status", "input", "output", "steps", "infra", "tags", "summary_markdown"]

def tagsAndGitilesMask : List String := ["id", "number", "builder", "input.gitiles_commit", "tags"]

/-- `ui.BuildPage`, with the fields `GetBuildPage` sets, for builds `B` and commits `Cm`. -/
structure BuildPage (B Cm : Type) where
  build : UIBuild B
  blame : List Cm
  buildBugLink : String
  buildbucketHost : String
  blamelistError : Option String
  forcedBlamelist : Bool

/-- What `GetBuildPage` gets from outside: the time, what `getHost` and `buildbucketClient` return,
`client.GetBuild` for a field mask, `getBlame` for its timeout in seconds, the host and a build, and
`getBugLink` for a build. -/
structure BuildPageDeps (B Cm : Type) where
  now : Int
  getHost : Except String String
  buildbucketClient : String → Except String Unit
  getBuild : List String → Except String B
  getBlame : Int → String → B → List Cm × Option String
  getBugLink : B → String × Option String

/-- `GetBuildPage`: the page and the error of `getBugLink`, or the error. `parallel.FanOutIn` runs
the full `GetBuild`, and, once the small `GetBuild` succeeded, `getBlame`, whose error goes to the
page; only the first can fail the fan-out, and the small `GetBuild`'s error is dropped. -/
def getBuildPage {B Cm : Type} (d : BuildPageDeps B Cm) (forceBlamelist : Bool) :
    Except String (BuildPage B Cm × Option String) :=
  match d.getHost with
  | .error err => .error err
  | .ok host =>
    match d.buildbucketClient host with
    | .error err => .error err
    | .ok () =>
      match d.getBuild fullBuildMask with
      | .error err => .error err
      | .ok b =>
        let blame : List Cm × Option String :=
          match d.getBuild tagsAndGitilesMask with
          | .error _ => ([], none)
          | .ok sb => d.getBlame (if forceBlamelist then 55 else 1) host sb
        let link := d.getBugLink b
        .ok (⟨⟨b, d.now⟩, blame.1, link.1, host, blame.2, forceBlamelist⟩, link.2)

theorem getBuildPage_blamelistError {B Cm : Type} {d : BuildPageDeps B Cm} {forceBlamelist : Bool}
    {page : BuildPage B Cm} {linkErr : Option String} {err : String}
    (h : getBuildPage d forceBlamelist = .ok (page, linkErr))
    (herr : page.blamelistError = some err) :
    d.getBuild fullBuildMask = .ok page.build.build ∧ ∃ sb, d.getBuild tagsAndGitilesMask = .ok sb ∧
      (d.getBlame (if forceBlamelist then 55 else 1) page.buildbucketHost sb).2 = some err := by
  unfold getBuildPage at h
  split at h
  · cases h
  split at h
  · cases h
  split at h
  · cases h
  rename_i host _ _ _ b hb
  dsimp only at h
  cases h
  refine ⟨hb, ?_⟩
  split at herr
  · cases herr
  · exact ⟨_, ‹_›, herr⟩

end Luci.Milo.Buildbucket
