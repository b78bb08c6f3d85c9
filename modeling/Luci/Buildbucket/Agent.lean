import Luci.ResultDB.JsonResults

/-!
# `bbagent`, Buildbucket's agent on a Swarming bot

`mainImpl` reads its input, connects to Buildbucket, prepares the host environment of the build's
executable, and forwards to Buildbucket every build the host yields, exiting with 0 when the last
one succeeded. A start-up error ends it with 1; once it is connected, it first sends Buildbucket a
build in `INFRA_FAILURE` that names the error. On Windows, `resolveExe` gives a path without an
extension the first of `.exe` and `.bat` that exists.

Whatever happens, Buildbucket hears what the agent exits with: the exit code is 0 exactly when the
last build sent to Buildbucket succeeded. `resolveExe` returns a path with an extension, which it
then returns as it is.
-/

namespace Luci.Buildbucket.Agent

open Luci.ResultDB.Formats (goQuote)

/-! ## `resolveExe` -/

/-- `filepath.Ext` on Windows, over the characters of the path from the last one back, `acc`
holding those after the one it reads. -/
def extFrom (acc : List Char) : List Char → List Char
  | [] => []
  | c :: cs =>
    if c = '\\' ∨ c = '/' then [] else if c = '.' then c :: acc else extFrom (c :: acc) cs

/-- `filepath.Ext(path)` on Windows, where `\` and `/` both separate the elements of a path. -/
def ext (path : String) : String := ⟨extFrom [] path.toList.reverse⟩

/-- `resolveExe(path)`, given what `os.Stat` returns for a path. -/
def resolveExe (stat : String → Except String Unit) (path : String) : Except String String :=
  if ext path ≠ "" then .ok path
  else
    match stat (path ++ ".exe"), stat (path ++ ".bat") with
    | .ok (), _ => .ok (path ++ ".exe")
    | .error _, .ok () => .ok (path ++ ".bat")
    | .error e₀, .error e₁ =>
      .error ("cannot find .exe (" ++ goQuote e₀ ++ ") or .bat (" ++ goQuote e₁ ++ ")")

theorem extFrom_append_dot {l : List Char} (hl : ∀ c ∈ l, c ≠ '.' ∧ c ≠ '\\' ∧ c ≠ '/')
    (acc rest : List Char) : extFrom acc (l ++ '.' :: rest) = '.' :: (l.reverse ++ acc) := by
  induction l generalizing acc with
  | nil => rfl
  | cons c l ih =>
    obtain ⟨hdot, hback, hslash⟩ := hl c (List.mem_cons_self _ _)
    rw [List.cons_append, extFrom, if_neg (by simp [hback, hslash]), if_neg hdot,
      ih (fun c hc => hl c (List.mem_cons_of_mem _ hc))]
    simp

theorem ext_append {path : String} {s : List Char} (hs : ∀ c ∈ s, c ≠ '.' ∧ c ≠ '\\' ∧ c ≠ '/') :
    ext (path ++ ⟨'.' :: s⟩) = ⟨'.' :: s⟩ := by
  have hs' : ∀ c ∈ s.reverse, c ≠ '.' ∧ c ≠ '\\' ∧ c ≠ '/' :=
    fun c hc => hs c (List.mem_reverse.mp hc)
  simp only [ext, String.toList, String.data_append, List.reverse_append, List.reverse_cons,
    List.append_assoc, List.singleton_append]
  rw [extFrom_append_dot hs', List.reverse_reverse, List.append_nil]

theorem ext_exe (path : String) : ext (path ++ ".exe") = ".exe" := ext_append (by decide)

theorem ext_bat (path : String) : ext (path ++ ".bat") = ".bat" := ext_append (by decide)

theorem resolveExe_idem {stat : String → Except String Unit} {path exe : String}
    (h : resolveExe stat path = .ok exe) :
    (ext path ≠ "" → exe = path) ∧ (ext path = "" → exe = path ++ ".exe" ∨ exe = path ++ ".bat") ∧
      ext exe ≠ "" ∧ ∀ stat' : String → Except String Unit, resolveExe stat' exe = .ok exe := by
  have hkept {p : String} (hp : ext p ≠ "") (stat' : String → Except String Unit) :
      resolveExe stat' p = .ok p := if_pos hp
  unfold resolveExe at h
  split_ifs at h with hext
  · cases h
    exact ⟨fun _ => rfl, fun h0 => absurd h0 hext, hext, hkept hext⟩
  · have hexe : ext (path ++ ".exe") ≠ "" := by simp [ext_exe]
    have hbat : ext (path ++ ".bat") ≠ "" := by simp [ext_bat]
    split at h <;> cases h
    · exact ⟨fun h0 => absurd h0 hext, fun _ => .inl rfl, hexe, hkept hexe⟩
    · exact ⟨fun h0 => absurd h0 hext, fun _ => .inr rfl, hbat, hkept hbat⟩

def batOnly (p : String) : Except String Unit :=
  if p = "C:/b/run.bat" then .ok () else .error ("CreateFile " ++ p ++ ": not found")

theorem resolveExe_bat :
    resolveExe batOnly "C:/b/run" = .ok "C:/b/run.bat" ∧
      resolveExe (fun p => .error ("CreateFile " ++ p ++ ": not found")) "C:/b/run.bat" =
        .ok "C:/b/run.bat" :=
  have h : resolveExe batOnly "C:/b/run" = .ok "C:/b/run.bat" := by decide
  ⟨h, (resolveExe_idem h).2.2.2 _⟩

/-! ## `mainImpl` -/

/-- `bbpb.Status`. -/
inductive Status
  | statusUnspecified | scheduled | started | endedMask | success | failure | infraFailure
  | canceled
  deriving DecidableEq, Repr

/-- `bbpb.Build`, the fields `mainImpl` reads or sets of the builds it sends. -/
structure Build where
  status : Status
  summaryMarkdown : String
  deriving DecidableEq, Repr

/-- `bbpb.BBAgentArgs`, the fields `mainImpl` reads: the executable, the cache directory, and the
build's Buildbucket host and ID. -/
structure BBAgentArgs where
  executablePath : String
  cacheDir : String
  hostname : String
  buildId : Int
  deriving DecidableEq, Repr

/-- `bbpb.Log`. -/
structure Log where
  name : String
  url : String
  deriving DecidableEq, Repr

/-- What `mainImpl` passes to `host.Run`: the options, the output logs of the base build, and the
executable and cache directory the callback starts the build with. -/
structure HostOptions where
  viewerURL : String
  baseDir : String
  outputLogs : List Log
  exePath : String
  cacheDir : String
  deriving DecidableEq, Repr

/-- What `mainImpl` gets from outside: `os.Args`, and what `bbinput.Parse`,
`lucictx.SwitchLocalAccount`, `newBuildsClient`, `mkLogdogOutput`, `os.Getwd`, `filepath.Join`,
`filepath.Abs`, `runtime.GOOS`, `os.Stat`, the JSON marshalling of the input, and `host.Run`
return. `host.Run` gives the builds its channel yields until it is closed. -/
structure AgentDeps where
  args : List String
  parse : String → Except String BBAgentArgs
  switchLocalAccount : Except String Unit
  newBuildsClient : Except String Unit
  mkLogdogOutput : Except String Unit
  getwd : Except String String
  join : String → String → String
  abs : String → Except String String
  goos : String
  stat : String → Except String Unit
  marshal : Except String Unit
  hostRun : HostOptions → Except String (List Build)

/-- `mainImpl` until it has connected to Buildbucket: its input, or the error `check` stops it
with. -/
def AgentDeps.connect (d : AgentDeps) : Except String BBAgentArgs :=
  if d.args.length ≠ 2 then
    .error ("expected 1 argument after arg0, got " ++ toString ((d.args.length : Int) - 1))
  else
    match d.parse (d.args.getD 1 "") with
    | .error err => .error ("could not unmarshal BBAgentArgs: " ++ err)
    | .ok input =>
      match d.switchLocalAccount, d.newBuildsClient with
      | .error err, _ =>
        .error ("could not switch to \x27system\x27 account in LUCI_CONTEXT: " ++ err)
      | .ok (), .error err => .error ("could not connect to Buildbucket: " ++ err)
      | .ok (), .ok () => .ok input

/-- `mainImpl` from its connection until `host.Run` returns: the builds the host yields, or the
error `check` stops it with. -/
def AgentDeps.start (d : AgentDeps) (input : BBAgentArgs) : Except String (List Build) := do
  d.mkLogdogOutput
  let cwd ← d.getwd.mapError ("getting cwd: " ++ ·)
  let exePath ← (d.abs input.executablePath).mapError
    ("absoluting exe path " ++ goQuote input.executablePath ++ ": " ++ ·)
  let exePath ← if d.goos = "windows" then
      (resolveExe d.stat exePath).mapError
        ("resolving " ++ goQuote input.executablePath ++ ": " ++ ·)
    else pure exePath
  d.marshal.mapError ("marshalling input args: " ++ ·)
  (d.hostRun
      { viewerURL := "https://" ++ input.hostname ++ "/build/" ++ toString input.buildId,
        baseDir := d.join cwd "x", outputLogs := [⟨"stdout", "stdout"⟩, ⟨"stderr", "stderr"⟩],
        exePath, cacheDir := input.cacheDir }).mapError
    ("could not start luciexe host environment: " ++ ·)

/-- One pass of the loop over the builds of `host.Run`: send the build to Buildbucket, and keep its
status as `finalStatus`. -/
def forward (acc : List Build × Status) (build : Build) : List Build × Status :=
  (acc.1 ++ [build], build.status)

/-- What `mainImpl` does, seen from outside: the builds it sends to Buildbucket, the error it logs,
and its exit code. -/
structure AgentRun where
  sent : List Build
  logged : Option String
  exitCode : Nat
  deriving DecidableEq, Repr

/-- `mainImpl()`. -/
def mainImpl (d : AgentDeps) : AgentRun :=
  match d.connect with
  | .error err => ⟨[], some err, 1⟩
  | .ok input =>
    match d.start input with
    | .error err => ⟨[⟨.infraFailure, "fatal error in startup: " ++ err⟩], some err, 1⟩
    | .ok builds =>
      let loop := builds.foldl forward ([], .statusUnspecified)
      ⟨loop.1, none, if loop.2 ≠ .success then 1 else 0⟩

theorem foldl_forward (builds : List Build) (acc : List Build × Status) :
    builds.foldl forward acc =
      (acc.1 ++ builds, (builds.getLast?.map Build.status).getD acc.2) := by
  induction builds generalizing acc with
  | nil => simp
  | cons b builds ih =>
    rw [List.foldl_cons, ih, List.getLast?_cons]
    cases builds.getLast? <;> simp [forward]

theorem mainImpl_reports (d : AgentDeps) :
    ((mainImpl d).exitCode = 0 ↔ (mainImpl d).sent.getLast?.map Build.status = some .success) ∧
      (∀ err, d.connect = .error err → (mainImpl d).sent = [] ∧ (mainImpl d).exitCode = 1) ∧
      ∀ input, d.connect = .ok input →
        (∀ err, d.start input = .error err →
          (mainImpl d).sent = [⟨.infraFailure, "fatal error in startup: " ++ err⟩]) ∧
        ∀ builds, d.start input = .ok builds → (mainImpl d).sent = builds := by
  unfold mainImpl
  rcases d.connect with err | input
  · simp
  rcases hs : d.start input with err | builds
  · simp [hs]
  · simp only [hs, foldl_forward, List.nil_append, Except.ok.injEq, forall_eq', reduceCtorEq,
      false_implies, implies_true, true_and, and_true]
    cases builds.getLast? with
    | none => simp
    | some b => by_cases hb : b.status = .success <;> simp [hb]

end Luci.Buildbucket.Agent
