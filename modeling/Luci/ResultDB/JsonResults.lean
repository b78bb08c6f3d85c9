import Mathlib.Data.List.Sort
import Mathlib.Data.String.Basic
import Luci.ResultDB.Artifacts
import Luci.ResultDB.CreateInvocation

/-!
# JSON Test Results to test results

`JSONTestResults.ToProtos` converts each test, in the order of the sorted test names, into one
test result per run, and only then updates the invocation in place: its state when the run was
interrupted, and its tags. Every error is returned before that update.

`encoding/json` is a parameter: a raw message type and what the converters decode from it. The
other calls outside src/ (`pbutil`'s normalisation, the format tag constants) are parameters too.
A Go map is a list of entries with distinct keys, in one iteration order; a float64 is a `Float`.
What `ToProtos` changes in place is passed in and returned, also on error.
-/

namespace Luci.ResultDB.Formats

/-- `pb.TestStatus`. -/
inductive TestStatus
  | unspecified
  | pass
  | fail
  | crash
  | abort
  | skip
  deriving DecidableEq, Repr

/-- A `pb.TestResult`, with the fields the converters set. The duration is in seconds, as it is
given to `secondsToDuration`; an unset `Variant` is the empty list. -/
structure TestResult where
  testPath : String
  expected : Bool
  status : TestStatus
  tags : List StringPair
  outputArtifacts : List Artifact
  duration : Option Float
  variant : List (String × String)

/-- What the converters call outside src/. -/
structure Env where
  normalizeInvocation : Invocation → Invocation
  normalizeTestResult : TestResult → TestResult
  originalFormatTagKey : String
  formatJTR : String
  formatGTest : String
  decodeBase64 : String → Except String (List UInt8)

/-- `TestFields`. -/
structure TestFields where
  actual : String
  expected : String
  artifacts : List (String × List String)
  time : Float
  times : List Float

/-- What the converters decode with `encoding/json` from a raw message: the map of a JSON object
(a Go map, so its keys are distinct), `TestFields` with the decoding error ignored, a string, a
list of strings, and `%q` of the raw bytes for messages. -/
structure JsonLib (Raw : Type) where
  toMap : Raw → Except String (List (String × Raw))
  toFields : Raw → TestFields
  toString : Raw → Except String String
  toStrings : Raw → Except String (List String)
  quote : Raw → String
  toMap_nodup : ∀ {raw m}, toMap raw = .ok m → (m.map Prod.fst).Nodup

/-- The fields of `JSONTestResults` the converters read, after `Decode`; `tests` is `Tests`. -/
structure JSONTestResults (Raw : Type) where
  interrupted : Bool
  pathDelimiter : String
  testsRaw : Raw
  tests : List (String × TestFields)
  version : Int
  buildNumber : String
  metadata : List (String × Raw)

/-- `isolated outputs` as `outputsToProcess` holds them. -/
abbrev Outputs := String → Option Artifact

/-- `width` lowercase hex digits of `n`, as `strconv` writes them in an escape. -/
def hexDigits (width n : Nat) : String :=
  ⟨(List.range width).reverse.map fun i => "0123456789abcdef".toList.getD (n / 16 ^ i % 16) '0'⟩

/-- `strconv.IsPrint` on Latin-1. Its tables for the characters above U+00FF are not modelled:
those are taken as printable. -/
def isPrint (c : Char) : Bool :=
  0xFF < c.toNat || (0x20 ≤ c.toNat && c.toNat ≤ 0x7E) || (0xA1 ≤ c.toNat && c.toNat ≠ 0xAD)

/-- `appendEscapedRune` with a double quote and neither `ASCIIonly` nor `graphicOnly`. -/
def escapeRune (c : Char) : String :=
  if c = '"' ∨ c = '\\' then "\\" ++ c.toString
  else if isPrint c then c.toString
  else if c = '\x07' then "\\a" else if c = '\x08' then "\\b" else if c = '\x0c' then "\\f"
  else if c = '\n' then "\\n" else if c = '\r' then "\\r" else if c = '\t' then "\\t"
  else if c = '\x0b' then "\\v"
  else if c.toNat < 0x20 ∨ c.toNat = 0x7F then "\\x" ++ hexDigits 2 c.toNat
  else "\\u" ++ hexDigits 4 c.toNat

/-- `strconv.Quote`. -/
def goQuote (s : String) : String := "\"" ++ String.join (s.toList.map escapeRune) ++ "\""

/-- `strings.Split` at a one-character separator, on the characters. -/
def splitChars (sep : Char) : List Char → List (List Char)
  | [] => [[]]
  | c :: cs =>
    if c = sep then [] :: splitChars sep cs
    else match splitChars sep cs with
      | w :: ws => (c :: w) :: ws
      | [] => [[c]]

/-- `strings.Split(s, sep)`. -/
def split (s : String) (sep : Char) : List String := (splitChars sep s.toList).map String.mk

/-- `sort.Strings`. -/
def sortStrings (names : List String) : List String := names.insertionSort (· ≤ ·)

def fromJSONStatus (s : String) : Except String TestStatus :=
  if s = "CRASH" then .ok .crash
  else if s = "FAIL" then .ok .fail
  else if s = "PASS" then .ok .pass
  else if s = "SKIP" then .ok .skip
  else if s = "TIMEOUT" then .ok .abort
  else if s ∈ ["IMAGE", "TEXT", "IMAGE+TEXT", "AUDIO", "LEAK", "MISSING"] then .ok .fail
  else .error ("unknown or unexpected JSON Test Format status " ++ s)

section Convert

variable (env : Env)

/-- The loop of `TestFields.toProtos` over the run statuses, from run `i`. -/
def runsToProtos (testPath : String) (expectedSet : List String)
    (arts : Int → List Artifact) (durations : List Float) :
    Nat → List String → Except String (List TestResult)
  | _, [] => .ok []
  | i, runStatus :: rest => do
    let status ← fromJSONStatus runStatus
    let tr : TestResult :=
      { testPath, expected := decide (runStatus ∈ expectedSet), status,
        tags := [⟨"json_format_status", runStatus⟩], outputArtifacts := arts i,
        duration := durations[i]?, variant := [] }
    let trs ← runsToProtos testPath expectedSet arts durations (i + 1) rest
    pure (env.normalizeTestResult tr :: trs)

/-- `TestFields.toProtos`: the test results it appends and the artifacts it could not resolve,
or its error, and `outputsToProcess` after `getArtifacts` deleted what it used. -/
def TestFields.toProtos (f : TestFields) (testPath : String) (outputsToProcess : Outputs) :
    Except String (List TestResult × (String → List String)) × Outputs :=
  let actualStatuses := split f.actual ' '
  let expectedSet := split f.expected ' '
  if 0 < f.times.length ∧ f.times.length ≠ actualStatuses.length then
    (.error (toString f.times.length ++ " durations populated but has " ++
      toString actualStatuses.length ++ " test statuses; should match"), outputsToProcess)
  else
    let durations := if 0 < f.times.length then f.times else if f.time != 0 then [f.time] else []
    let acc := getArtifacts f.artifacts outputsToProcess
    ((runsToProtos env testPath expectedSet acc.artifacts durations 0 actualStatuses).map
      (·, acc.unresolved), acc.outputs)

variable {Raw : Type}

/-- The loop of `ToProtos` over the sorted test names; every name is a key of `Tests`. -/
def JSONTestResults.testsToProtos (r : JSONTestResults Raw) (testPathPrefix : String) :
    List String → Outputs → Except String (List TestResult) × Outputs
  | [], outputs => (.ok [], outputs)
  | name :: names, outputs =>
    match List.lookup name r.tests with
    | none => r.testsToProtos testPathPrefix names outputs
    | some f =>
      match f.toProtos env (testPathPrefix ++ name) outputs with
      | (.error e, outputs) =>
        (.error ("test " ++ goQuote name ++ " failed to convert run fields: " ++ e), outputs)
      | (.ok (trs, _), outputs) =>
        let rest := r.testsToProtos testPathPrefix names outputs
        (rest.1.map (trs ++ ·), rest.2)

/-- `extractTags`: the `tags` of `metadata` as a list of strings. -/
def JSONTestResults.extractTags (L : JsonLib Raw) (r : JSONTestResults Raw) :
    Except String (List String) :=
  match List.lookup "tags" r.metadata with
  | none => .ok []
  | some maybeTags =>
    match L.toStrings maybeTags with
    | .ok tags => .ok tags
    | .error e => .error ("tags not []string, got " ++ L.quote maybeTags ++ ": " ++ e)

/-- The in-place update of `inv` at the end of `ToProtos`, before `NormalizeInvocation`. -/
def JSONTestResults.updateInvocation (r : JSONTestResults Raw) (tags : List String)
    (inv : Invocation) : Invocation :=
  let inv := if r.interrupted then { inv with state := .interrupted } else inv
  { inv with
    tags := inv.tags ++ [⟨env.originalFormatTagKey, env.formatJTR⟩] ++
      tags.map (fun tag => ⟨"json_format_tag", tag⟩) ++
      (if r.buildNumber ≠ "" then [⟨"build_number", r.buildNumber⟩] else []) }

/-- `JSONTestResults.ToProtos`: the test results or the error, and `inv` and `outputsToProcess`
as the call leaves them. -/
def JSONTestResults.toProtos (L : JsonLib Raw) (r : JSONTestResults Raw) (testPathPrefix : String)
    (inv : Invocation) (outputsToProcess : Outputs) :
    Except String (List TestResult) × Invocation × Outputs :=
  if r.version ≠ 3 then
    (.error ("unknown JSON Test Results version " ++ toString r.version), inv, outputsToProcess)
  else
    match r.testsToProtos env testPathPrefix (sortStrings (r.tests.map Prod.fst))
      outputsToProcess with
    | (.error e, outputs) => (.error e, inv, outputs)
    | (.ok ret, outputs) =>
      match r.extractTags L with
      | .error e => (.error e, inv, outputs)
      | .ok tags => (.ok ret, env.normalizeInvocation (r.updateInvocation env tags inv), outputs)

theorem JSONTestResults.toProtos_cases (L : JsonLib Raw) (r : JSONTestResults Raw)
    (testPathPrefix : String) (inv : Invocation) (outputs : Outputs) :
    (∃ e outputs', r.toProtos env L testPathPrefix inv outputs = (.error e, inv, outputs')) ∨
    ∃ ret tags outputs', r.extractTags L = .ok tags ∧
      r.toProtos env L testPathPrefix inv outputs =
        (.ok ret, env.normalizeInvocation (r.updateInvocation env tags inv), outputs') := by
  unfold JSONTestResults.toProtos
  split_ifs
  · exact .inl ⟨_, _, rfl⟩
  rcases r.testsToProtos env testPathPrefix (sortStrings (r.tests.map Prod.fst)) outputs with
    ⟨e | ret, outputs'⟩
  · exact .inl ⟨e, outputs', rfl⟩
  rcases htags : r.extractTags L with e | tags
  · exact .inl ⟨e, outputs', rfl⟩
  · exact .inr ⟨ret, tags, outputs', rfl, rfl⟩

end Convert

def plainEnv : Env where
  normalizeInvocation := id
  normalizeTestResult := id
  originalFormatTagKey := "orig_format"
  formatJTR := "chromium_json_test_results"
  formatGTest := "chromium_gtest"
  decodeBase64 _ := .error "illegal base64 data"

def shardInvocation : Invocation := ⟨"invocations/task-1", .active, ⟨0, 0⟩, none, []⟩

end Luci.ResultDB.Formats
