import Luci.Text

/-!
# Creating a test exoneration

`CreateTestExoneration` validates the request and writes one row of `TestExonerations` in a
transaction of `mutateInvocation`, which first checks the update token and that the invocation is
active. The row's key ends in an exoneration ID made of the variant's hash and a suffix. Without a
request ID the suffix is a random UUID and the row is inserted, which fails on an existing row.
With one, the suffix is the hex SHA-512 of the caller's identity, the request ID and the ordinal,
and the row is inserted or replaced.

So a call retried with its request ID returns the exoneration of the first call and writes nothing
new, and two callers whose requests carry the same request ID write different rows unless SHA-512
collides. What the handler calls outside this file (the `pbutil` validators and names, the hash and
`mutateInvocation`'s checks) is a parameter.
-/

namespace Luci.ResultDB.Exoneration

/-- `pb.Variant`: its definition map, as its pairs. -/
abbrev Variant := List (String × String)

/-- `pb.TestExoneration`. -/
structure TestExoneration where
  name : String
  testPath : String
  variant : Variant
  exonerationId : String
  explanationMarkdown : String
  deriving DecidableEq, Repr

/-- `pb.CreateTestExonerationRequest`; the test exoneration may be nil. -/
structure CreateTestExonerationRequest where
  invocation : String
  testExoneration : Option TestExoneration
  requestId : String

/-- What `CreateTestExoneration` calls outside this file. A validator returns its error message. -/
structure Deps where
  validateInvocationName : String → Option String
  validateTestPath : String → Option String
  validateVariant : Variant → Option String
  validateRequestID : String → Option String
  /-- `span.MustParseInvocationName`. -/
  parseInvocationName : String → String
  variantHash : Variant → String
  /-- `pbutil.TestExonerationName(invID, testPath, exonerationID)`. -/
  testExonerationName : String → String → String → String
  /-- `hex.EncodeToString` of the SHA-512 of what was written to the hash. -/
  sha512Hex : String → String

/-- The columns of a `TestExonerations` row besides its key. -/
structure Row where
  variant : Variant
  variantHash : String
  explanationMarkdown : String
  deriving DecidableEq, Repr

abbrev Key := String × String × String

def Table := Key → Option Row

/-- The mutation `insertTestExoneration` builds: `spanner.InsertMap` or
`spanner.InsertOrUpdateMap` of one row. -/
structure Mutation where
  insertOrUpdate : Bool
  key : Key
  row : Row

def Mutation.apply (m : Mutation) (db : Table) : Except String Table :=
  if !m.insertOrUpdate && (db m.key).isSome then .error "spanner: row already exists"
  else .ok fun k => if k = m.key then some m.row else db k

section Handler

variable (D : Deps)

/-- `validateCreateTestExonerationRequest`; a nil test exoneration reads as empty fields. -/
def validateCreateTestExonerationRequest (req : CreateTestExonerationRequest)
    (requireInvocation : Bool) : Option String :=
  let ex := req.testExoneration.getD ⟨"", "", [], "", ""⟩
  match (if requireInvocation || req.invocation != "" then D.validateInvocationName req.invocation
      else none),
    D.validateTestPath ex.testPath, D.validateVariant ex.variant,
    D.validateRequestID req.requestId with
  | some err, _, _, _ => some ("invocation: " ++ err)
  | none, some err, _, _ => some ("test_exoneration: test_path: " ++ err)
  | none, none, some err, _ => some ("test_exoneration: variant: " ++ err)
  | none, none, none, some err => some ("request_id: " ++ err)
  | none, none, none, none => none

/-- `deterministicExonerationIDSuffix`: `fmt.Fprintln` writes each value and a newline. -/
def deterministicExonerationIDSuffix (identity requestID : String) (ordinal : Nat) : String :=
  D.sha512Hex (identity ++ "\n" ++ requestID ++ "\n" ++ toString ordinal ++ "\n")

/-- `insertTestExoneration`, given the caller's identity and the UUID `uuid.New` returns: the
exoneration it returns and the mutation. -/
def insertTestExoneration (identity uuid invID requestID : String) (ordinal : Nat)
    (body : TestExoneration) : TestExoneration × Mutation :=
  let exonerationIDSuffix := if requestID = "" then "r:" ++ uuid
    else "d:" ++ deterministicExonerationIDSuffix D identity requestID ordinal
  let exonerationID := D.variantHash body.variant ++ ":" ++ exonerationIDSuffix
  let ret : TestExoneration :=
    { name := D.testExonerationName invID body.testPath exonerationID, testPath := body.testPath,
      variant := body.variant, exonerationId := exonerationID,
      explanationMarkdown := body.explanationMarkdown }
  (ret, ⟨requestID ≠ "", (invID, ret.testPath, exonerationID),
    ⟨ret.variant, D.variantHash ret.variant, ret.explanationMarkdown⟩⟩)

/-- `CreateTestExoneration`, given the caller's identity, the UUID `uuid.New` returns and the
outcome of `mutateInvocation`'s checks: the result and the table after the call. A nil test
exoneration that the validators accept makes `insertTestExoneration` dereference nil. -/
def createTestExoneration (identity uuid : String) (mayMutate : Except String Unit)
    (req : CreateTestExonerationRequest) (db : Table) : Except String TestExoneration × Table :=
  match validateCreateTestExonerationRequest D req true, req.testExoneration with
  | some err, _ => (.error ("bad request: " ++ err), db)
  | none, none =>
    (.error "panic: runtime error: invalid memory address or nil pointer dereference", db)
  | none, some body =>
    let inserted := insertTestExoneration D identity uuid (D.parseInvocationName req.invocation)
      req.requestId 0 body
    match mayMutate, inserted.2.apply db with
    | .error err, _ => (.error err, db)
    | .ok (), .error err => (.error err, db)
    | .ok (), .ok db' => (.ok inserted.1, db')

end Handler

/-! ## Retries and callers -/

section Calls

variable {D : Deps}

theorem createTestExoneration_eq_ok {identity uuid : String} {mayMutate : Except String Unit}
    {req : CreateTestExonerationRequest} {db db' : Table} {ret : TestExoneration}
    (h : createTestExoneration D identity uuid mayMutate req db = (.ok ret, db')) :
    ∃ body, req.testExoneration = some body ∧
      validateCreateTestExonerationRequest D req true = none ∧ mayMutate = .ok () ∧
      (insertTestExoneration D identity uuid (D.parseInvocationName req.invocation) req.requestId 0
        body).1 = ret ∧
      (insertTestExoneration D identity uuid (D.parseInvocationName req.invocation) req.requestId 0
        body).2.apply db = .ok db' := by
  unfold createTestExoneration at h
  rcases hv : validateCreateTestExonerationRequest D req true with _ | err
  · rcases hb : req.testExoneration with _ | body
    · simp only [hv, hb] at h
      cases h
    · simp only [hv, hb] at h
      rcases mayMutate with err | ⟨⟩
      · cases h
      · rcases happly : (insertTestExoneration D identity uuid
          (D.parseInvocationName req.invocation) req.requestId 0 body).2.apply db with
          err | db₁ <;> simp only [happly] at h
        · cases h
        · obtain ⟨hret, rfl⟩ := Prod.mk.inj h
          exact ⟨body, rfl, rfl, rfl, Except.ok.inj hret, happly⟩
  · simp only [hv] at h
    cases h

theorem Mutation.apply_again {m : Mutation} (hm : m.insertOrUpdate = true) {db db' : Table}
    (h : m.apply db = .ok db') : m.apply db' = .ok db' := by
  unfold Mutation.apply at h ⊢
  simp only [hm, Bool.not_true, Bool.false_and, Bool.false_eq_true, if_false] at h ⊢
  obtain rfl := Except.ok.inj h
  congr 1
  funext k
  by_cases hk : k = m.key <;> simp [hk]

theorem insertTestExoneration_of_requestId (identity invID : String) {requestID : String}
    (ordinal : Nat) (body : TestExoneration) (h : requestID ≠ "") (uuid uuid' : String) :
    insertTestExoneration D identity uuid invID requestID ordinal body =
      insertTestExoneration D identity uuid' invID requestID ordinal body ∧
    (insertTestExoneration D identity uuid invID requestID ordinal body).2.insertOrUpdate = true ∧
    (insertTestExoneration D identity uuid invID requestID ordinal body).1.exonerationId =
      D.variantHash body.variant ++ ":" ++ ("d:" ++
        D.sha512Hex (identity ++ "\n" ++ requestID ++ "\n" ++ toString ordinal ++ "\n")) := by
  refine ⟨?_, decide_eq_true h, ?_⟩ <;>
    simp only [insertTestExoneration, deterministicExonerationIDSuffix, if_neg h]

theorem createTestExoneration_retry {identity uuid uuid' : String}
    {req : CreateTestExonerationRequest} (hreq : req.requestId ≠ "")
    {mayMutate : Except String Unit} {db db₁ : Table} {ret : TestExoneration}
    (h₁ : createTestExoneration D identity uuid mayMutate req db = (.ok ret, db₁)) :
    createTestExoneration D identity uuid' (.ok ()) req db₁ = (.ok ret, db₁) := by
  obtain ⟨body, hbody, hval, -, hret, happly⟩ := createTestExoneration_eq_ok h₁
  obtain ⟨huuid, -, -⟩ := insertTestExoneration_of_requestId (D := D) identity
    (D.parseInvocationName req.invocation) 0 body hreq uuid' uuid
  obtain ⟨-, hupdate, -⟩ := insertTestExoneration_of_requestId (D := D) identity
    (D.parseInvocationName req.invocation) 0 body hreq uuid uuid
  unfold createTestExoneration
  simp only [hval, hbody]
  rw [huuid, Mutation.apply_again hupdate happly, hret]

def sampleDeps : Deps where
  validateInvocationName _ := none
  validateTestPath _ := none
  validateVariant _ := none
  validateRequestID _ := none
  parseInvocationName name := ⟨name.data.drop 12⟩
  variantHash _ := "e3b0c44298fc1c14"
  testExonerationName inv path id :=
    "invocations/" ++ inv ++ "/tests/" ++ path ++ "/exonerations/" ++ id
  sha512Hex s := ⟨(s.data ++ List.replicate 128 '0').take 128⟩

theorem sampleDeps_sha512Hex_length (s : String) : (sampleDeps.sha512Hex s).length = 128 := by
  show ((s.data ++ List.replicate 128 '0').take 128).length = 128
  simp

def sampleBody : TestExoneration :=
  ⟨"", "ninja://chrome/test:browser_tests/Foo.Bar", [], "", "flaky"⟩

def sampleCall (identity uuid : String) : Except String TestExoneration × Table :=
  createTestExoneration sampleDeps identity uuid (.ok ())
    ⟨"invocations/inv", some sampleBody, "req-1"⟩ fun _ => none

def sampleResult (identity uuid : String) : TestExoneration :=
  (insertTestExoneration sampleDeps identity uuid "inv" "req-1" 0 sampleBody).1

theorem createTestExoneration_retry_sample :
    sampleCall "user:ci-bot" "u1" =
        (.ok (sampleResult "user:ci-bot" "u1"), (sampleCall "user:ci-bot" "u1").2) ∧
      createTestExoneration sampleDeps "user:ci-bot" "u2" (.ok ())
          ⟨"invocations/inv", some sampleBody, "req-1"⟩ (sampleCall "user:ci-bot" "u1").2 =
        (.ok (sampleResult "user:ci-bot" "u1"), (sampleCall "user:ci-bot" "u1").2) :=
  have h₁ : sampleCall "user:ci-bot" "u1" =
      (.ok (sampleResult "user:ci-bot" "u1"), (sampleCall "user:ci-bot" "u1").2) := rfl
  ⟨h₁, createTestExoneration_retry (by decide) h₁⟩

theorem createTestExoneration_callers {identity₁ identity₂ uuid₁ uuid₂ : String}
    {req₁ req₂ : CreateTestExonerationRequest} (hsha : ∀ s, (D.sha512Hex s).length = 128)
    (hid : identity₁ ≠ identity₂) (hn₁ : '\n' ∉ identity₁.data) (hn₂ : '\n' ∉ identity₂.data)
    (hreq : req₁.requestId = req₂.requestId) (hne : req₁.requestId ≠ "")
    {m₁ m₂ : Except String Unit} {db₁ db₁' db₂ db₂' : Table} {ret₁ ret₂ : TestExoneration}
    (h₁ : createTestExoneration D identity₁ uuid₁ m₁ req₁ db₁ = (.ok ret₁, db₁'))
    (h₂ : createTestExoneration D identity₂ uuid₂ m₂ req₂ db₂ = (.ok ret₂, db₂')) :
    ret₁.exonerationId ≠ ret₂.exonerationId ∨
      identity₁ ++ "\n" ++ req₁.requestId ++ "\n" ++ toString 0 ++ "\n" ≠
          identity₂ ++ "\n" ++ req₁.requestId ++ "\n" ++ toString 0 ++ "\n" ∧
        D.sha512Hex (identity₁ ++ "\n" ++ req₁.requestId ++ "\n" ++ toString 0 ++ "\n") =
          D.sha512Hex (identity₂ ++ "\n" ++ req₁.requestId ++ "\n" ++ toString 0 ++ "\n") := by
  obtain ⟨body₁, -, -, -, rfl, -⟩ := createTestExoneration_eq_ok h₁
  obtain ⟨body₂, -, -, -, rfl, -⟩ := createTestExoneration_eq_ok h₂
  rw [(insertTestExoneration_of_requestId _ _ _ _ hne uuid₁ uuid₁).2.2,
    (insertTestExoneration_of_requestId _ _ _ _ (hreq ▸ hne) uuid₂ uuid₂).2.2, ← hreq]
  have hs : identity₁ ++ "\n" ++ req₁.requestId ++ "\n" ++ toString 0 ++ "\n" ≠
      identity₂ ++ "\n" ++ req₁.requestId ++ "\n" ++ toString 0 ++ "\n" := fun hs => by
    have hdata := congrArg String.data hs
    simp only [String.data_append, List.append_assoc] at hdata
    exact hid (String.ext (eq_of_append_cons_eq hn₁ hn₂ hdata).1)
  by_cases hcoll : D.sha512Hex (identity₁ ++ "\n" ++ req₁.requestId ++ "\n" ++ toString 0 ++ "\n") =
      D.sha512Hex (identity₂ ++ "\n" ++ req₁.requestId ++ "\n" ++ toString 0 ++ "\n")
  · exact .inr ⟨hs, hcoll⟩
  · refine .inl fun hxy => hcoll ?_
    simp only [← String.append_assoc] at hxy
    exact String.ext (List.append_inj' (congrArg String.data hxy)
      (by rw [← String.length, ← String.length, hsha, hsha])).2

theorem createTestExoneration_callers_two_bots :
    sampleCall "user:bot-1" "u1" =
        (.ok (sampleResult "user:bot-1" "u1"), (sampleCall "user:bot-1" "u1").2) ∧
      sampleCall "user:bot-2" "u2" =
        (.ok (sampleResult "user:bot-2" "u2"), (sampleCall "user:bot-2" "u2").2) ∧
      ((sampleResult "user:bot-1" "u1").exonerationId ≠
          (sampleResult "user:bot-2" "u2").exonerationId ∨
        "user:bot-1" ++ "\n" ++ "req-1" ++ "\n" ++ toString 0 ++ "\n" ≠
            "user:bot-2" ++ "\n" ++ "req-1" ++ "\n" ++ toString 0 ++ "\n" ∧
          sampleDeps.sha512Hex
              ("user:bot-1" ++ "\n" ++ "req-1" ++ "\n" ++ toString 0 ++ "\n") =
            sampleDeps.sha512Hex
              ("user:bot-2" ++ "\n" ++ "req-1" ++ "\n" ++ toString 0 ++ "\n")) :=
  have h₁ : sampleCall "user:bot-1" "u1" =
      (.ok (sampleResult "user:bot-1" "u1"), (sampleCall "user:bot-1" "u1").2) := rfl
  have h₂ : sampleCall "user:bot-2" "u2" =
      (.ok (sampleResult "user:bot-2" "u2"), (sampleCall "user:bot-2" "u2").2) := rfl
  ⟨h₁, h₂, createTestExoneration_callers sampleDeps_sha512Hex_length (by decide) (by decide)
    (by decide) rfl (by decide) h₁ h₂⟩

end Calls

end Luci.ResultDB.Exoneration
