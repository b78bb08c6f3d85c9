import Luci.Milo.Encoding

/-!
# Creating an invocation

`CreateInvocation` validates the request, draws an update token from 32 random bytes, sets it as
a response header, and then inserts the invocation in one read-write transaction. A request whose
`request_id` is the one the stored invocation was created with is deduplicated: the transaction
returns the stored invocation and writes nothing. The header is set before the transaction, with
the token this call drew.

The `Invocations` table is a map from invocation id to the columns `insertInvocation` writes and
`ReadInvocationFull` reads back. What the handler calls outside this file (the `pbutil`
validators, `ptypes.Timestamp`, `NormalizeInvocation` and the default deadline) is a parameter.
Times are nanoseconds since the Unix epoch.
-/

namespace Luci.ResultDB

structure StringPair where
  key : String
  value : String
  deriving DecidableEq, Repr

structure Timestamp where
  seconds : Int
  nanos : Int
  deriving DecidableEq, Repr

/-- `pbutil.MustTimestampProto`. -/
def mustTimestampProto (t : Int) : Timestamp := ⟨t / 1000000000, t % 1000000000⟩

/-- `pb.Invocation_State`, the states the handlers and converters set. -/
inductive InvocationState
  | active
  | completed
  | interrupted
  deriving DecidableEq, Repr

structure Invocation where
  name : String
  state : InvocationState
  createTime : Timestamp
  deadline : Option Timestamp
  tags : List StringPair
  deriving DecidableEq, Repr

structure CreateInvocationRequest (BQ : Type) where
  invocationId : String
  invocation : Option Invocation
  requestId : String
  bigqueryExports : List BQ

/-- What `CreateInvocation` calls outside this file. A validator returns its error message. -/
structure Deps (BQ : Type) where
  validateInvocationID : String → Option String
  validateRequestID : String → Option String
  validateStringPairs : List StringPair → Option String
  validateBigQueryExport : BQ → Option String
  timestamp : Timestamp → Except String Int
  normalizeInvocation : Invocation → Invocation
  defaultInvocationDeadlineDuration : Int

inductive Code
  | invalidArgument
  | alreadyExists
  | unknown
  deriving DecidableEq, Repr

structure RpcError where
  code : Code
  msg : String
  deriving DecidableEq, Repr

def second : Int := 1000000000

def hour : Int := 3600 * second

/-- The buffer `generateUpdateToken` fills with `rand.Read`. -/
structure TokenBytes where
  bytes : Bytes
  length_eq : bytes.length = 32
  deriving DecidableEq

/-- The columns of an `Invocations` row that `CreateInvocation` writes or reads. -/
structure Row where
  invocation : Invocation
  updateToken : String
  createRequestId : String
  deriving DecidableEq, Repr

def Table := String → Option Row

def Table.empty : Table := fun _ => none

def Table.insert (db : Table) (id : String) (row : Row) : Table :=
  fun k => if k = id then some row else db k

@[simp] theorem Table.insert_self (db : Table) (id : String) (row : Row) :
    db.insert id row id = some row := if_pos rfl

/-- `strings.HasPrefix`. -/
def hasPrefix (s pre : String) : Bool := pre.toList.isPrefixOf s.toList

/-- `span.InvocationID.Name`. -/
def invocationName (id : String) : String := "invocations/" ++ id

def insertInvocation (inv : Invocation) (updateToken requestId : String) : Row :=
  ⟨inv, updateToken, requestId⟩

def invocationAlreadyExists : RpcError := ⟨.alreadyExists, "invocation already exists"⟩

def generateUpdateToken (read : Except String TokenBytes) : Except String String :=
  read.map fun buf => hexEncode buf.bytes

instance decEqExcept {ε α : Type} [DecidableEq ε] [DecidableEq α] : DecidableEq (Except ε α)
  | .error a, .error b => decidable_of_iff (a = b) ⟨(· ▸ rfl), Except.error.inj⟩
  | .ok a, .ok b => decidable_of_iff (a = b) ⟨(· ▸ rfl), Except.ok.inj⟩
  | .error _, .ok _ => isFalse nofun
  | .ok _, .error _ => isFalse nofun

structure Outcome where
  result : Except RpcError Invocation
  updateToken : Option String
  table : Table

section Handler

variable {BQ : Type} (D : Deps BQ)

def validateInvocationDeadline (deadline : Timestamp) (now : Int) : Option String :=
  match D.timestamp deadline with
  | .error err => some err
  | .ok d =>
    if d - now < 10 * second then some "must be at least 10 seconds in the future"
    else if 2 * 24 * hour < d - now then some "must be before 48h in the future"
    else none

/-- The loop over `bigquery_exports`, from index `i`. -/
def validateBigQueryExports : Nat → List BQ → Option String
  | _, [] => none
  | i, e :: es =>
    match D.validateBigQueryExport e with
    | some err => some ("bigquery_export[" ++ toString i ++ "]: " ++ err)
    | none => validateBigQueryExports (i + 1) es

def validateCreateInvocationRequest (req : CreateInvocationRequest BQ) (now : Int) :
    Option String :=
  if let some err := D.validateInvocationID req.invocationId then some ("invocation_id: " ++ err)
  else if !hasPrefix req.invocationId "u:" then
    some ("invocation_id: an invocation created by a non-LUCI system must have id starting with " ++
      "\"u:\"; please generate \"u:\x7bGUID\x7d\"")
  else if let some err := D.validateRequestID req.requestId then some ("request_id: " ++ err)
  else match req.invocation with
    | none => none
    | some inv =>
      if let some err := D.validateStringPairs inv.tags then some ("invocation.tags: " ++ err)
      else if let some err := inv.deadline.bind (validateInvocationDeadline D · now) then
        some ("invocation: deadline: " ++ err)
      else validateBigQueryExports D 0 req.bigqueryExports

/-- The invocation `CreateInvocation` prepares before its transaction. -/
def newInvocation (req : CreateInvocationRequest BQ) (now : Int) : Invocation :=
  D.normalizeInvocation
    { name := invocationName req.invocationId
      state := .active
      createTime := mustTimestampProto now
      deadline := some ((req.invocation.bind Invocation.deadline).getD
        (mustTimestampProto (now + D.defaultInvocationDeadlineDuration)))
      tags := (req.invocation.map Invocation.tags).getD [] }

end Handler

/-- The body of the read-write transaction, run atomically. An insert over an existing row fails
with `AlreadyExists`, which the handler reports as `invocationAlreadyExists`. -/
def createTxn (invId requestId : String) (inv : Invocation) (updateToken : String) (db : Table) :
    Except RpcError (Invocation × Table) :=
  let insert : Except RpcError (Invocation × Table) :=
    match db invId with
    | some _ => .error invocationAlreadyExists
    | none => .ok (inv, db.insert invId (insertInvocation inv updateToken requestId))
  if requestId = "" then insert
  else
    match db invId with
    | none => insert
    | some row =>
      if row.createRequestId = requestId then .ok (row.invocation, db)
      else .error invocationAlreadyExists

/-- `CreateInvocation`, given the clock reading and what `rand.Read` gave. -/
def createInvocation {BQ : Type} (D : Deps BQ) (req : CreateInvocationRequest BQ) (now : Int)
    (read : Except String TokenBytes) (db : Table) : Outcome :=
  match validateCreateInvocationRequest D req now with
  | some err => ⟨.error ⟨.invalidArgument, "bad request: " ++ err⟩, none, db⟩
  | none =>
    match generateUpdateToken read with
    | .error err => ⟨.error ⟨.unknown, err⟩, none, db⟩
    | .ok token =>
      match createTxn req.invocationId req.requestId (newInvocation D req now) token db with
      | .ok (inv, db') => ⟨.ok inv, some token, db'⟩
      | .error e => ⟨.error e, some token, db⟩

theorem hasPrefix_append (pre s : String) : hasPrefix (pre ++ s) pre = true :=
  List.isPrefixOf_iff_prefix.mpr (List.prefix_append _ _)

section Handler

variable {BQ : Type} (D : Deps BQ)

theorem validateBigQueryExports_prefix : ∀ {i : Nat} {es : List BQ} {err : String},
    validateBigQueryExports D i es = some err → hasPrefix err "bigquery_export[" = true
  | _, [], _, h => by cases h
  | i, e :: es, err, h => by
    unfold validateBigQueryExports at h
    split at h
    · cases h
      rw [String.append_assoc, String.append_assoc]
      exact hasPrefix_append _ _
    · exact validateBigQueryExports_prefix h

def requestFields : List String :=
  ["invocation_id: ", "request_id: ", "invocation.tags: ", "invocation: deadline: ",
    "bigquery_export["]

theorem validateCreateInvocationRequest_names_field {req : CreateInvocationRequest BQ} {now : Int}
    {err : String} (h : validateCreateInvocationRequest D req now = some err) :
    ∃ field ∈ requestFields, hasPrefix err field = true := by
  have named : ∀ field ∈ requestFields, ∀ s, some (field ++ s) = some err →
      ∃ field ∈ requestFields, hasPrefix err field = true :=
    fun field hf s hs => ⟨field, hf, by cases hs; exact hasPrefix_append field s⟩
  unfold validateCreateInvocationRequest at h
  split at h
  · exact named _ (by decide) _ h
  split at h
  · exact ⟨"invocation_id: ", by decide, by cases h; decide⟩
  split at h
  · exact named _ (by decide) _ h
  split at h
  · cases h
  split at h
  · exact named _ (by decide) _ h
  split at h
  · exact named _ (by decide) _ h
  · exact ⟨_, by decide, validateBigQueryExports_prefix D h⟩

end Handler

theorem createTxn_eq_ok {invId requestId updateToken : String} {inv inv' : Invocation}
    {db db' : Table} (h : createTxn invId requestId inv updateToken db = .ok (inv', db')) :
    db invId = none ∧ inv' = inv ∧
      db' = db.insert invId (insertInvocation inv updateToken requestId) ∨
    requestId ≠ "" ∧ ∃ row, db invId = some row ∧ row.createRequestId = requestId ∧
      inv' = row.invocation ∧ db' = db := by
  unfold createTxn at h
  rcases hdb : db invId with _ | row <;> simp only [hdb, ite_self] at h
  · obtain ⟨rfl, rfl⟩ := Prod.mk.inj (Except.ok.inj h).symm
    exact .inl ⟨rfl, rfl, rfl⟩
  · split_ifs at h with hr hc
    cases h
    exact .inr ⟨hr, row, rfl, hc, rfl, rfl⟩

theorem createTxn_dedup {invId requestId updateToken : String} {inv : Invocation} {db : Table}
    {row : Row} (hr : requestId ≠ "") (hdb : db invId = some row)
    (hc : row.createRequestId = requestId) :
    createTxn invId requestId inv updateToken db = .ok (row.invocation, db) := by
  simp only [createTxn, hr, hdb, hc, if_false, if_true]

section Calls

variable {BQ : Type} {D : Deps BQ} {req : CreateInvocationRequest BQ} {now : Int}
  {read : Except String TokenBytes} {db : Table}

theorem createInvocation_cases :
    (∃ err, createInvocation D req now read db =
      ⟨.error ⟨.invalidArgument, "bad request: " ++ err⟩, none, db⟩) ∨
    (∃ err, createInvocation D req now read db = ⟨.error ⟨.unknown, err⟩, none, db⟩) ∨
    (∃ (buf : TokenBytes) (e : RpcError),
      createInvocation D req now read db = ⟨.error e, some (hexEncode buf.bytes), db⟩) ∨
    (validateCreateInvocationRequest D req now = none ∧ ∃ buf, read = .ok buf ∧ ∃ inv db',
      createTxn req.invocationId req.requestId (newInvocation D req now) (hexEncode buf.bytes) db =
        .ok (inv, db') ∧
      createInvocation D req now read db = ⟨.ok inv, some (hexEncode buf.bytes), db'⟩) := by
  unfold createInvocation
  rcases hv : validateCreateInvocationRequest D req now with _ | err
  · rcases read with err | buf
    · exact .inr (.inl ⟨err, rfl⟩)
    simp only [generateUpdateToken, Except.map]
    rcases htx : createTxn req.invocationId req.requestId (newInvocation D req now)
      (hexEncode buf.bytes) db with e | ⟨inv, db'⟩
    · exact .inr (.inr (.inl ⟨buf, e, rfl⟩))
    · exact .inr (.inr (.inr ⟨by simp, buf, rfl, inv, db', htx, rfl⟩))
  · exact .inl ⟨err, rfl⟩

theorem createInvocation_eq_ok {inv : Invocation}
    (h : (createInvocation D req now read db).result = .ok inv) :
    validateCreateInvocationRequest D req now = none ∧ ∃ buf, read = .ok buf ∧
      (createInvocation D req now read db).updateToken = some (hexEncode buf.bytes) ∧
      createTxn req.invocationId req.requestId (newInvocation D req now) (hexEncode buf.bytes) db =
        .ok (inv, (createInvocation D req now read db).table) := by
  rcases @createInvocation_cases BQ D req now read db with
    ⟨_, hc⟩ | ⟨_, hc⟩ | ⟨_, _, hc⟩ | ⟨hv, buf, hbuf, _, _, htx, hc⟩ <;> rw [hc] at h ⊢ <;> cases h
  exact ⟨hv, buf, hbuf, rfl, htx⟩

theorem createInvocation_error_table {e : RpcError}
    (h : (createInvocation D req now read db).result = .error e) :
    (createInvocation D req now read db).table = db := by
  rcases @createInvocation_cases BQ D req now read db with
    ⟨_, hc⟩ | ⟨_, hc⟩ | ⟨_, _, hc⟩ | ⟨_, _, _, _, _, _, hc⟩ <;> rw [hc] at h ⊢
  cases h

end Calls

theorem TokenBytes.hexEncode_inj {a b : TokenBytes} :
    hexEncode a.bytes = hexEncode b.bytes ↔ a = b :=
  ⟨fun h => by cases a; cases b; cases hexEncode_injective h; rfl, fun h => h ▸ rfl⟩

theorem createInvocation_ok_row {BQ : Type} {D : Deps BQ} {req : CreateInvocationRequest BQ}
    {now : Int} {buf : TokenBytes} {db : Table} {inv : Invocation}
    (h : (createInvocation D req now (.ok buf) db).result = .ok inv) :
    ∃ row, (createInvocation D req now (.ok buf) db).table req.invocationId = some row ∧
      row.invocation = inv ∧ row.createRequestId = req.requestId ∧
      (db req.invocationId = none → row.updateToken = hexEncode buf.bytes) := by
  obtain ⟨-, buf', hbuf, -, htx⟩ := createInvocation_eq_ok h
  cases hbuf
  rcases createTxn_eq_ok htx with ⟨hdb, rfl, hdb'⟩ | ⟨-, row, hdb, hc, rfl, hdb'⟩
  · exact ⟨_, by rw [hdb', Table.insert_self], rfl, rfl, fun _ => rfl⟩
  · exact ⟨row, by rw [hdb', hdb], rfl, hc, fun h => by rw [hdb] at h; cases h⟩

theorem createInvocation_retry {BQ : Type} (D : Deps BQ) {req₁ req₂ : CreateInvocationRequest BQ}
    (hid : req₂.invocationId = req₁.invocationId) (hrid : req₂.requestId = req₁.requestId)
    (hne : req₁.requestId ≠ "") {now₁ now₂ : Int} {buf₁ buf₂ : TokenBytes} {db : Table}
    {o₁ o₂ : Outcome} {inv₁ inv₂ : Invocation}
    (h₁ : createInvocation D req₁ now₁ (.ok buf₁) db = o₁) (ok₁ : o₁.result = .ok inv₁)
    (h₂ : createInvocation D req₂ now₂ (.ok buf₂) o₁.table = o₂) (ok₂ : o₂.result = .ok inv₂) :
    inv₂ = inv₁ ∧ o₂.table = o₁.table ∧ o₁.updateToken = some (hexEncode buf₁.bytes) ∧
      o₂.updateToken = some (hexEncode buf₂.bytes) ∧
      ∃ row, o₁.table req₁.invocationId = some row ∧ row.invocation = inv₁ ∧
        (db req₁.invocationId = none →
          row.updateToken = hexEncode buf₁.bytes ∧
          (o₂.updateToken = some row.updateToken ↔ buf₂ = buf₁)) := by
  subst h₁ h₂
  obtain ⟨row, hrow, hinv, hc, htok⟩ := createInvocation_ok_row ok₁
  obtain ⟨-, _, hbuf₁, hdr₁, -⟩ := createInvocation_eq_ok ok₁
  obtain ⟨-, _, hbuf₂, hdr₂, htx₂⟩ := createInvocation_eq_ok ok₂
  cases hbuf₁; cases hbuf₂
  rw [hid, hrid, createTxn_dedup hne hrow hc] at htx₂
  obtain ⟨rfl, hdb⟩ := Prod.mk.inj (Except.ok.inj htx₂)
  refine ⟨hinv, hdb.symm, hdr₁, hdr₂, row, hrow, hinv, fun h => ⟨htok h, ?_⟩⟩
  rw [hdr₂, htok h, Option.some_inj, TokenBytes.hexEncode_inj]

def acceptingDeps : Deps Unit where
  validateInvocationID _ := none
  validateRequestID _ := none
  validateStringPairs _ := none
  validateBigQueryExport _ := none
  timestamp ts := .ok (ts.seconds * second + ts.nanos)
  normalizeInvocation := id
  defaultInvocationDeadlineDuration := hour

def retryReq : CreateInvocationRequest Unit := ⟨"u:inv", none, "request id", []⟩

def zeroToken : TokenBytes := ⟨List.replicate 32 0, rfl⟩

def oneToken : TokenBytes := ⟨1 :: List.replicate 31 0, rfl⟩

def retryInvocation : Invocation := ⟨"invocations/u:inv", .active, ⟨0, 0⟩, some ⟨3600, 0⟩, []⟩

def firstCreate : Outcome := createInvocation acceptingDeps retryReq 0 (.ok zeroToken) Table.empty

def retriedCreate : Outcome :=
  createInvocation acceptingDeps retryReq 0 (.ok oneToken) firstCreate.table

theorem retried_create_sends_fresh_token :
    firstCreate.result = .ok retryInvocation ∧ retriedCreate.result = .ok retryInvocation ∧
    (firstCreate.table "u:inv").map Row.updateToken = firstCreate.updateToken ∧
    retriedCreate.updateToken ≠ (firstCreate.table "u:inv").map Row.updateToken := by
  decide

theorem createInvocation_retry_after_first :
    retryReq.requestId ≠ "" ∧ firstCreate.result = .ok retryInvocation ∧
    retriedCreate.result = .ok retryInvocation ∧
    retryInvocation = retryInvocation ∧ retriedCreate.table = firstCreate.table ∧
    firstCreate.updateToken = some (hexEncode zeroToken.bytes) ∧
    retriedCreate.updateToken = some (hexEncode oneToken.bytes) ∧
    ∃ row, firstCreate.table retryReq.invocationId = some row ∧ row.invocation = retryInvocation ∧
      (Table.empty retryReq.invocationId = none →
        row.updateToken = hexEncode zeroToken.bytes ∧
        (retriedCreate.updateToken = some row.updateToken ↔ oneToken = zeroToken)) :=
  ⟨by decide, by decide, by decide,
    createInvocation_retry acceptingDeps rfl rfl (by decide) rfl (by decide) rfl (by decide)⟩

end Luci.ResultDB
