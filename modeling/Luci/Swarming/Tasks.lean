import Luci.Swarming.Trigger
import Luci.Text

/-!
# Extra tasks of `swarming trigger`, and task states

`main` tags the request `processTriggerOptions` built with a random `InvocationUUID` tag and an
`RPCUUID` tag, and sends it with `NewTask`. Swarming may create the task more than once, for one
when a retried `NewTask` had created it before it failed with a server error. With
`-cancel-extra-tasks`, `cancelExtraTasks` counts the tasks created since just before the call that
carry the invocation's tag; when there are more than the tasks it got back, it lists them and
cancels, in parallel, every one it did not get back.

Swarming is here a list of tasks; a count and a list for a time and tags are those of the tasks
created at or after the time that carry the tags. A run cancels only listed tasks it did not get
back. A run that succeeds has cancelled every counted task it did not get back, also when the count
lets it skip the list: that happens only when the tasks it got back are all the tasks counted. So
when `main` succeeds with `-cancel-extra-tasks`, the task `NewTask` returned is the only task of the
invocation created since `createStart` that it has not cancelled.
-/

namespace Luci.Swarming

open Luci.ResultDB.Formats (goQuote)

/-! ## Tags -/

/-- `swarming.SwarmingRpcsTaskRequestMetadata`, the field the callers read. -/
structure TaskRequestMetadata where
  taskId : String
  deriving DecidableEq, Repr

/-- `swarming.SwarmingRpcsTaskResult`, the field `cancelExtraTasks` reads. -/
structure TaskResult where
  taskId : String
  deriving DecidableEq, Repr

/-- `request.Tags = append(request.Tags, tag)`. -/
def NewTaskRequest.addTag (tag : String) (r : NewTaskRequest) : NewTaskRequest :=
  { r with tags := r.tags ++ [tag] }

@[simp] theorem NewTaskRequest.addTag_tags (tag : String) (r : NewTaskRequest) :
    (r.addTag tag).tags = r.tags ++ [tag] := rfl

/-- `addInvocationUUIDTags(requests...)`, given the string of the UUID `uuid.NewRandom` returns:
the tag, and the requests with it. -/
def addInvocationUUIDTags (newRandom : Except String String) (requests : List NewTaskRequest) :
    Except String (String × List NewTaskRequest) :=
  match newRandom with
  | .error err => .error err
  | .ok randomUUID =>
    let invocationTag := "InvocationUUID:" ++ randomUUID
    .ok (invocationTag, requests.map (·.addTag invocationTag))

/-- `addRPCUUIDTags(requests...)`, given what the successive calls of `uuid.NewRandom` return: the
requests as the loop leaves them, the tags it returns, and its error. A failed call ends the loop,
with the requests before it tagged. -/
def addRPCUUIDTags (newRandom : Nat → Except String String) :
    List NewTaskRequest → List NewTaskRequest × List String × Option String
  | [] => ([], [], none)
  | request :: requests =>
    match newRandom 0 with
    | .error err => (request :: requests, [], some err)
    | .ok randomUUID =>
      let rpcTag := "RPCUUID:" ++ randomUUID
      let rest := addRPCUUIDTags (fun i => newRandom (i + 1)) requests
      (request.addTag rpcTag :: rest.1, rpcTag :: rest.2.1, rest.2.2)

def rpcTags (uuids : Nat → String) (n : Nat) : List String :=
  (List.range n).map fun i => "RPCUUID:" ++ uuids i

theorem addRPCUUIDTags_distinct {newRandom : Nat → Except String String} {uuids : Nat → String}
    (hok : ∀ i, newRandom i = .ok (uuids i)) (hinj : Function.Injective uuids)
    (requests : List NewTaskRequest) :
    addRPCUUIDTags newRandom requests =
        (List.zipWith NewTaskRequest.addTag (rpcTags uuids requests.length) requests,
          rpcTags uuids requests.length, none) ∧
      (rpcTags uuids requests.length).Nodup := by
  refine ⟨?_, List.Nodup.map (fun i j h => hinj ?_) (List.nodup_range _)⟩
  · clear hinj
    induction requests generalizing newRandom uuids with
    | nil => rfl
    | cons request requests ih =>
      rw [addRPCUUIDTags, hok 0, @ih (fun i => newRandom (i + 1)) (fun i => uuids (i + 1))
        fun i => hok (i + 1)]
      simp [rpcTags, List.range_succ_eq_map, Function.comp_def]
  · exact String.ext (List.append_cancel_left (congrArg String.data h))

def sampleRequest : NewTaskRequest :=
  (processTriggerOptions sampleFlags ["python", "run.py"] [] sampleChoices).2

theorem addRPCUUIDTags_two_requests :
    (addRPCUUIDTags (fun i => .ok i.repr) [sampleRequest, sampleRequest]).2.1 =
        ["RPCUUID:0", "RPCUUID:1"] ∧ (rpcTags Nat.repr 2).Nodup :=
  have h := @addRPCUUIDTags_distinct (fun i => .ok i.repr) Nat.repr (fun _ => rfl) repr_injective
    [sampleRequest, sampleRequest]
  ⟨by rw [h.1]; rfl, h.2⟩

/-! ## Cancelling the extra tasks -/

/-- The calls of the Swarming service that `main` and `cancelExtraTasks` make, by what they
return: `NewTask` for a request, `CountTasks` and `ListTasks` for a start time and tags, and
`CancelTask` for a task ID. Each is one `retryGoogleRPC` call. -/
structure Service where
  newTask : NewTaskRequest → Except String TaskRequestMetadata
  countTasks : Int → List String → Except String Int
  listTasks : Int → List String → Except String (List TaskResult)
  cancelTask : String → Except String Unit

/-- `invalidTaskIDs`: the IDs of the listed tasks that are not among `results`, in list order. -/
def invalidTaskIDs (results : List TaskRequestMetadata) (items : List TaskResult) : List String :=
  (items.map TaskResult.taskId).filter fun id => id ∉ results.map TaskRequestMetadata.taskId

/-- The errors of the `CancelTask` calls on `ids` that fail, in the order of `ids`. -/
def cancelErrors (svc : Service) (ids : List String) : List String :=
  ids.filterMap fun id =>
    match svc.cancelTask id with
    | .error err => some err
    | .ok () => none

/-- The error of `cancelExtraTasks`: that of `CountTasks` or `ListTasks`, or the
`errors.MultiError` that `parallel.WorkPool` returns. -/
inductive CancelError
  | rpc (err : String)
  | multi (errs : List String)
  deriving DecidableEq, Repr

/-- A run of `cancelExtraTasks(c, service, createStart, invocationTag, results)`: the IDs it calls
`CancelTask` on, and what it returns. `parallel.WorkPool` makes every call and returns the errors of
those that fail, in the order they finish. -/
inductive CancelExtraTasks (svc : Service) (createStart : Int) (invocationTag : String)
    (results : List TaskRequestMetadata) : List String → Except CancelError Unit → Prop
  | countFailed {err} : svc.countTasks createStart [invocationTag] = .error err →
      CancelExtraTasks svc createStart invocationTag results [] (.error (.rpc err))
  | noExtra {taskCount} : svc.countTasks createStart [invocationTag] = .ok taskCount →
      taskCount ≤ results.length →
      CancelExtraTasks svc createStart invocationTag results [] (.ok ())
  | listFailed {taskCount err} : svc.countTasks createStart [invocationTag] = .ok taskCount →
      ¬taskCount ≤ results.length → svc.listTasks createStart [invocationTag] = .error err →
      CancelExtraTasks svc createStart invocationTag results [] (.error (.rpc err))
  | cancelled {taskCount items errs} :
      svc.countTasks createStart [invocationTag] = .ok taskCount →
      ¬taskCount ≤ results.length → svc.listTasks createStart [invocationTag] = .ok items →
      errs.Perm (cancelErrors svc (invalidTaskIDs results items)) →
      CancelExtraTasks svc createStart invocationTag results (invalidTaskIDs results items)
        (if errs = [] then .ok () else .error (.multi errs))

structure ServerTask where
  taskId : String
  tags : List String
  createdTs : Int
  deriving DecidableEq, Repr

def selectTasks (tasks : List ServerTask) (start : Int) (tags : List String) : List ServerTask :=
  tasks.filter fun t => start ≤ t.createdTs ∧ ∀ tag ∈ tags, tag ∈ t.tags

def Service.CountsFrom (svc : Service) (tasks : List ServerTask) : Prop :=
  ∀ start tags n, svc.countTasks start tags = .ok n → n = (selectTasks tasks start tags).length

def Service.ListsFrom (svc : Service) (tasks : List ServerTask) : Prop :=
  ∀ start tags items, svc.listTasks start tags = .ok items →
    (items.map TaskResult.taskId).Perm ((selectTasks tasks start tags).map ServerTask.taskId)

def Service.CreatesIn (svc : Service) (tasks : List ServerTask) (start : Int) : Prop :=
  ∀ r res, svc.newTask r = .ok res →
    ∃ t ∈ tasks, t.taskId = res.taskId ∧ r.tags ⊆ t.tags ∧ start ≤ t.createdTs

section Run

variable {svc : Service} {createStart : Int} {invocationTag : String}
  {results : List TaskRequestMetadata} {ids : List String} {out : Except CancelError Unit}

theorem mem_invalidTaskIDs {items : List TaskResult} {id : String} :
    id ∈ invalidTaskIDs results items ↔
      id ∈ items.map TaskResult.taskId ∧ id ∉ results.map TaskRequestMetadata.taskId := by
  simp [invalidTaskIDs]

theorem cancelErrors_eq_nil :
    cancelErrors svc ids = [] ↔ ∀ id ∈ ids, svc.cancelTask id = .ok () := by
  simp only [cancelErrors, List.filterMap_eq_nil_iff]
  refine forall₂_congr fun id _ => ?_
  cases svc.cancelTask id <;> simp

theorem CancelExtraTasks.cancels_listed
    (h : CancelExtraTasks svc createStart invocationTag results ids out) {id : String}
    (hid : id ∈ ids) :
    id ∉ results.map TaskRequestMetadata.taskId ∧
      ∃ items, svc.listTasks createStart [invocationTag] = .ok items ∧
        id ∈ items.map TaskResult.taskId := by
  cases h with
  | cancelled _ _ hlist _ =>
    exact ⟨(mem_invalidTaskIDs.mp hid).2, _, hlist, (mem_invalidTaskIDs.mp hid).1⟩
  | countFailed | noExtra | listFailed => cases hid

theorem CancelExtraTasks.ok_cases
    (h : CancelExtraTasks svc createStart invocationTag results ids out) (hout : out = .ok ()) :
    ∃ taskCount, svc.countTasks createStart [invocationTag] = .ok taskCount ∧
      (taskCount ≤ results.length ∨
        ∃ items, svc.listTasks createStart [invocationTag] = .ok items ∧
          ids = invalidTaskIDs results items ∧ ∀ id ∈ ids, svc.cancelTask id = .ok ()) := by
  cases h with
  | noExtra hcount hle => exact ⟨_, hcount, .inl hle⟩
  | cancelled hcount _ hlist hperm =>
    split_ifs at hout with herrs
    subst herrs
    exact ⟨_, hcount, .inr ⟨_, hlist, rfl, cancelErrors_eq_nil.mp hperm.nil_eq.symm⟩⟩
  | countFailed | listFailed => cases hout

theorem CancelExtraTasks.covers {tasks₁ tasks₂ : List ServerTask}
    (hcount : svc.CountsFrom tasks₁) (hlist : svc.ListsFrom tasks₂) (hgrow : tasks₁ ⊆ tasks₂)
    (hres : (results.map TaskRequestMetadata.taskId).Nodup)
    (hsel : ∀ r ∈ results,
      r.taskId ∈ (selectTasks tasks₁ createStart [invocationTag]).map ServerTask.taskId)
    (h : CancelExtraTasks svc createStart invocationTag results ids out) (hout : out = .ok ())
    {t : ServerTask} (ht : t ∈ selectTasks tasks₁ createStart [invocationTag])
    (hnot : t.taskId ∉ results.map TaskRequestMetadata.taskId) :
    t.taskId ∈ ids ∧ svc.cancelTask t.taskId = .ok () := by
  obtain ⟨n, hn, hskip | ⟨items, hitems, rfl, hok⟩⟩ := h.ok_cases hout
  · -- the tasks it got back are distinct and counted, and no fewer than the count: they are all
    have hsub : results.map TaskRequestMetadata.taskId ⊆
        (selectTasks tasks₁ createStart [invocationTag]).map ServerTask.taskId :=
      fun _ hx => List.forall_mem_map.mpr hsel _ hx
    have hlen :
        ((selectTasks tasks₁ createStart [invocationTag]).map ServerTask.taskId).length ≤
          (results.map TaskRequestMetadata.taskId).length := by
      have := hcount _ _ _ hn
      simp only [List.length_map]
      omega
    exact absurd (((List.subperm_of_subset hres hsub).perm_of_length_le hlen).symm.subset
      (List.mem_map_of_mem _ ht)) hnot
  · have hlisted : t.taskId ∈ items.map TaskResult.taskId :=
      (hlist _ _ _ hitems).mem_iff.mpr (List.mem_map_of_mem _ (List.filter_subset _ hgrow ht))
    have hmem : t.taskId ∈ invalidTaskIDs results items := mem_invalidTaskIDs.mpr ⟨hlisted, hnot⟩
    exact ⟨hmem, hok _ hmem⟩

end Run

theorem cancelExtraTasks_cancels_extra {svc : Service} {createStart : Int} {invocationTag : String}
    {results : List TaskRequestMetadata} {ids : List String} {out : Except CancelError Unit}
    (h : CancelExtraTasks svc createStart invocationTag results ids out) :
    (∀ id ∈ ids, id ∉ results.map TaskRequestMetadata.taskId ∧
      ∃ items, svc.listTasks createStart [invocationTag] = .ok items ∧
        id ∈ items.map TaskResult.taskId) ∧
    ∀ {tasks₁ tasks₂ : List ServerTask}, svc.CountsFrom tasks₁ → svc.ListsFrom tasks₂ →
      tasks₁ ⊆ tasks₂ → (results.map TaskRequestMetadata.taskId).Nodup →
      (∀ r ∈ results,
        r.taskId ∈ (selectTasks tasks₁ createStart [invocationTag]).map ServerTask.taskId) →
      (∀ id ∈ ids, id ∈ (selectTasks tasks₂ createStart [invocationTag]).map ServerTask.taskId) ∧
      (out = .ok () → ∀ t ∈ selectTasks tasks₁ createStart [invocationTag],
        t.taskId ∉ results.map TaskRequestMetadata.taskId →
          t.taskId ∈ ids ∧ svc.cancelTask t.taskId = .ok ()) := by
  refine ⟨fun _ hid => h.cancels_listed hid, fun hcount hlist hgrow hres hsel =>
    ⟨fun id hid => ?_, fun hout t ht hnot => h.covers hcount hlist hgrow hres hsel hout ht hnot⟩⟩
  obtain ⟨-, items, hitems, hmem⟩ := h.cancels_listed hid
  exact (hlist _ _ _ hitems).subset hmem

def sampleTags : List String := ["InvocationUUID:u1", "RPCUUID:r1"]

def duplicatedTasks : List ServerTask :=
  [⟨"t0", ["InvocationUUID:u0"], 90⟩, ⟨"t1", sampleTags, 100⟩, ⟨"t2", sampleTags, 101⟩]

def duplicatingService : Service where
  newTask r := if r.tags = sampleTags then .ok ⟨"t2"⟩ else .error "googleapi: Error 503"
  countTasks start tags := .ok (selectTasks duplicatedTasks start tags).length
  listTasks start tags := .ok ((selectTasks duplicatedTasks start tags).map fun t => ⟨t.taskId⟩)
  cancelTask _ := .ok ()

theorem duplicatingService_countsFrom : duplicatingService.CountsFrom duplicatedTasks :=
  fun _ _ _ h => (Except.ok.inj h).symm

theorem duplicatingService_listsFrom : duplicatingService.ListsFrom duplicatedTasks := by
  intro _ _ _ h
  cases h
  rw [List.map_map]
  rfl

theorem duplicatedTasks_run :
    CancelExtraTasks duplicatingService 100 "InvocationUUID:u1" [⟨"t2"⟩] ["t1"] (.ok ()) :=
  @CancelExtraTasks.cancelled _ _ _ _ _ [⟨"t1"⟩, ⟨"t2"⟩] [] rfl (by decide) rfl (.refl _)

theorem cancelExtraTasks_cancels_duplicate :
    ("t1" ∉ ["t2"] ∧ ∃ items, duplicatingService.listTasks 100 ["InvocationUUID:u1"] = .ok items ∧
      "t1" ∈ items.map TaskResult.taskId) ∧
    "t1" ∈ ["t1"] ∧ duplicatingService.cancelTask "t1" = .ok () :=
  have h := cancelExtraTasks_cancels_extra duplicatedTasks_run
  ⟨h.1 "t1" (List.mem_singleton_self _),
    (h.2 duplicatingService_countsFrom duplicatingService_listsFrom (List.Subset.refl _)
      (by decide) (by decide)).2 rfl ⟨"t1", sampleTags, 100⟩ (by decide) (by decide)⟩

/-! ## `main` -/

/-- What `triggerRun.main` gets from outside: what `uuid.NewRandom` returns, for the invocation's
tag and then for the RPC tags, the result of `createSwarmingClient`, the time `createStart`, the
service, the text of an `errors.MultiError`, and what the JSON dump's `os.Create`,
`json.MarshalIndent` and `Write` return. -/
structure MainDeps where
  invocationUUID : Except String String
  rpcUUIDs : Nat → Except String String
  createSwarmingClient : Except String Unit
  createStart : Int
  svc : Service
  multiError : List String → String
  create : Except String Unit
  marshal : Except String Unit
  write : Except String Unit

/-- The text of a `cancelExtraTasks` error. -/
def CancelError.text (multiError : List String → String) : CancelError → String
  | .rpc err => err
  | .multi errs => multiError errs

/-- `main` until `NewTask` returns, on the request `processTriggerOptions` built: the invocation's
tag, the requests as tagged, and the tasks `NewTask` returned. `main` tags and sends one request;
the model keeps it in the list the two helpers take. -/
def MainDeps.newTasks (d : MainDeps) (request : NewTaskRequest) :
    Except String (String × List NewTaskRequest × List TaskRequestMetadata) :=
  match addInvocationUUIDTags d.invocationUUID [request] with
  | .error err => .error ("failed to add InvocationUUID tag to request: " ++ err)
  | .ok (invocationTag, requests) =>
    match addRPCUUIDTags d.rpcUUIDs requests with
    | (_, _, some err) => .error ("failed to add RPCUUID tag to request: " ++ err)
    | (requests, _, none) =>
      match d.createSwarmingClient with
      | .error err => .error err
      | .ok () =>
        match requests.mapM d.svc.newTask with
        | .error err => .error err
        | .ok results => .ok (invocationTag, requests, results)

/-- The JSON dump at the end of `main`, into the file `-dump-json` names. -/
def MainDeps.dump (d : MainDeps) (dumpJSON : String) : Except String Unit :=
  if dumpJSON = "" then .ok ()
  else
    match d.create, d.marshal, d.write with
    | .error err, _, _ => .error err
    | .ok (), .error err, _ => .error ("marshalling trigger result: " ++ err)
    | .ok (), .ok (), .error err => .error ("writing json dump: " ++ err)
    | .ok (), .ok (), .ok () => .ok ()

/-- A run of `triggerRun.main(a, args, env)`: the IDs it calls `CancelTask` on, and what it
returns. -/
inductive TriggerMain (d : MainDeps) (c : TriggerRun) (args : List String)
    (env : List (String × String)) (ch : Choices) : List String → Except String Unit → Prop
  | failed {err} : d.newTasks (processTriggerOptions c args env ch).2 = .error err →
      TriggerMain d c args env ch [] (.error err)
  | created {invocationTag requests results} :
      d.newTasks (processTriggerOptions c args env ch).2 =
        .ok (invocationTag, requests, results) →
      c.cancelExtraTasks = false → TriggerMain d c args env ch [] (d.dump c.dumpJSON)
  | cancelled {invocationTag requests results ids out} :
      d.newTasks (processTriggerOptions c args env ch).2 =
        .ok (invocationTag, requests, results) →
      c.cancelExtraTasks = true →
      CancelExtraTasks d.svc d.createStart invocationTag results ids out →
      TriggerMain d c args env ch ids
        (match out with
          | .ok () => d.dump c.dumpJSON
          | .error err => .error ("failed to cancel extra tasks for invocation " ++ invocationTag ++
              ": " ++ err.text d.multiError))

theorem MainDeps.newTasks_eq_ok {d : MainDeps} {request : NewTaskRequest} {invocationTag : String}
    {requests : List NewTaskRequest} {results : List TaskRequestMetadata}
    (h : d.newTasks request = .ok (invocationTag, requests, results)) :
    ∃ randomUUID sent result, d.invocationUUID = .ok randomUUID ∧
      invocationTag = "InvocationUUID:" ++ randomUUID ∧ requests = [sent] ∧
      invocationTag ∈ sent.tags ∧
      d.svc.newTask sent = .ok result ∧ results = [result] := by
  unfold MainDeps.newTasks addInvocationUUIDTags at h
  rcases hu : d.invocationUUID with err | randomUUID <;> rw [hu] at h
  · cases h
  rcases hr : d.rpcUUIDs 0 with err | rpcUUID <;> simp only [List.map, addRPCUUIDTags, hr] at h
  · cases h
  rcases hc : d.createSwarmingClient with err | ⟨⟩ <;> simp only [hc] at h
  · cases h
  rcases hn : d.svc.newTask (((request.addTag ("InvocationUUID:" ++ randomUUID)).addTag
      ("RPCUUID:" ++ rpcUUID))) with err | result <;>
    simp only [List.mapM_cons, List.mapM_nil, hn] at h
  · cases h
  · obtain ⟨rfl, rfl, rfl⟩ := h
    exact ⟨randomUUID, _, result, rfl, rfl, rfl, by simp, hn, rfl⟩

theorem TriggerMain.ok_cancelled {d : MainDeps} {c : TriggerRun} {args : List String}
    {env : List (String × String)} {ch : Choices} {ids : List String} {r : Except String Unit}
    (h : TriggerMain d c args env ch ids r) (hr : r = .ok ()) (hflag : c.cancelExtraTasks = true) :
    ∃ invocationTag requests results,
      d.newTasks (processTriggerOptions c args env ch).2 =
        .ok (invocationTag, requests, results) ∧
      CancelExtraTasks d.svc d.createStart invocationTag results ids (.ok ()) := by
  cases h with
  | failed => cases hr
  | created _ hoff => exact absurd hflag (by simp [hoff])
  | @cancelled _ _ _ _ out hsent _ hcancel =>
    cases out with
    | error => cases hr
    | ok => exact ⟨_, _, _, hsent, hcancel⟩

theorem triggerMain_cancels_extra {d : MainDeps} {c : TriggerRun} {args : List String}
    {env : List (String × String)} {ch : Choices} {ids : List String}
    (hrun : TriggerMain d c args env ch ids (.ok ())) (hflag : c.cancelExtraTasks = true)
    {tasks₁ tasks₂ : List ServerTask} (hnew : d.svc.CreatesIn tasks₁ d.createStart)
    (hcount : d.svc.CountsFrom tasks₁) (hlist : d.svc.ListsFrom tasks₂)
    (hgrow : tasks₁ ⊆ tasks₂) :
    ∃ invocationTag requests result,
      d.newTasks (processTriggerOptions c args env ch).2 =
        .ok (invocationTag, requests, [result]) ∧
      ∀ t ∈ selectTasks tasks₁ d.createStart [invocationTag],
        t.taskId = result.taskId ∧ t.taskId ∉ ids ∨
          t.taskId ∈ ids ∧ d.svc.cancelTask t.taskId = .ok () := by
  obtain ⟨invocationTag, requests, results, hsent, hcancel⟩ := hrun.ok_cancelled rfl hflag
  obtain ⟨-, sent, result, -, -, -, htag, hnt, rfl⟩ := MainDeps.newTasks_eq_ok hsent
  -- the task returned is counted: Swarming created it from the tagged request
  obtain ⟨t₀, ht₀, hid, hsub, hts⟩ := hnew _ _ hnt
  have hsel : ∀ r ∈ [result],
      r.taskId ∈ (selectTasks tasks₁ d.createStart [invocationTag]).map ServerTask.taskId := by
    simp only [List.mem_singleton, forall_eq]
    have hcounted : t₀ ∈ selectTasks tasks₁ d.createStart [invocationTag] :=
      List.mem_filter.mpr ⟨ht₀, by simpa [hts] using hsub htag⟩
    exact List.mem_map.mpr ⟨t₀, hcounted, hid⟩
  refine ⟨invocationTag, requests, result, hsent, fun t ht => ?_⟩
  by_cases heq : t.taskId = result.taskId
  · exact .inl ⟨heq, fun hmem => (hcancel.cancels_listed hmem).1 (by simp [heq])⟩
  · exact .inr (hcancel.covers hcount hlist hgrow (by simp) hsel rfl ht (by simpa using heq))

def sampleMainDeps : MainDeps where
  invocationUUID := .ok "u1"
  rpcUUIDs _ := .ok "r1"
  createSwarmingClient := .ok ()
  createStart := 100
  svc := duplicatingService
  multiError errs := "; ".intercalate errs
  create := .ok ()
  marshal := .ok ()
  write := .ok ()

theorem duplicatingService_createsIn : duplicatingService.CreatesIn duplicatedTasks 100 := by
  intro r res h
  simp only [duplicatingService] at h
  split_ifs at h with htags
  cases h
  exact ⟨⟨"t2", sampleTags, 101⟩, by simp [duplicatedTasks], rfl, by simp [htags],
    by decide⟩

theorem sampleMain_run :
    TriggerMain sampleMainDeps sampleFlags ["python", "run.py"] [] sampleChoices ["t1"] (.ok ()) :=
  @TriggerMain.cancelled sampleMainDeps sampleFlags ["python", "run.py"] [] sampleChoices
    "InvocationUUID:u1" [(sampleRequest.addTag "InvocationUUID:u1").addTag "RPCUUID:r1"]
    [⟨"t2"⟩] ["t1"] (.ok ()) rfl rfl duplicatedTasks_run

theorem triggerMain_cancels_duplicate :
    ∃ invocationTag requests result, sampleMainDeps.newTasks sampleRequest =
        .ok (invocationTag, requests, [result]) ∧
      ∀ t ∈ selectTasks duplicatedTasks 100 [invocationTag],
        t.taskId = result.taskId ∧ t.taskId ∉ ["t1"] ∨
          t.taskId ∈ ["t1"] ∧ duplicatingService.cancelTask t.taskId = .ok () :=
  triggerMain_cancels_extra sampleMain_run rfl duplicatingService_createsIn
    duplicatingService_countsFrom duplicatingService_listsFrom (List.Subset.refl _)

/-! ## Task states -/

/-- `taskState`, an `int32` of bits. -/
abbrev TaskState := BitVec 32

/-- `maskAlive`, the bit of the states in which a task may still run. -/
def maskAlive : TaskState := 1

def stateBotDied : TaskState := 1 <<< 1
def stateCancelled : TaskState := 1 <<< 2
def stateCompleted : TaskState := 1 <<< 3
def stateExpired : TaskState := 1 <<< 4
def statePending : TaskState := 1 <<< 5 ||| maskAlive
def stateRunning : TaskState := 1 <<< 6 ||| maskAlive
def stateTimedOut : TaskState := 1 <<< 7
def stateNoResource : TaskState := 1 <<< 8
def stateKilled : TaskState := 1 <<< 9
def stateUnknown : TaskState := -1

/-- `parseTaskState`: the state, and the error. -/
def parseTaskState (state : String) : TaskState × Option String :=
  match state with
  | "BOT_DIED" => (stateBotDied, none)
  | "CANCELED" => (stateCancelled, none)
  | "COMPLETED" => (stateCompleted, none)
  | "EXPIRED" => (stateExpired, none)
  | "PENDING" => (statePending, none)
  | "RUNNING" => (stateRunning, none)
  | "TIMED_OUT" => (stateTimedOut, none)
  | "NO_RESOURCE" => (stateNoResource, none)
  | "KILLED" => (stateKilled, none)
  | _ => (stateUnknown, some ("unrecognized state: " ++ goQuote state))

/-- `taskState.Alive`. -/
def TaskState.alive (t : TaskState) : Bool := t &&& maskAlive != 0

theorem alive_parseTaskState (state : String) :
    (parseTaskState state).1.alive = true ↔
      state = "PENDING" ∨ state = "RUNNING" ∨ (parseTaskState state).2.isSome := by
  unfold parseTaskState
  split <;> simp_all <;> decide

end Luci.Swarming
