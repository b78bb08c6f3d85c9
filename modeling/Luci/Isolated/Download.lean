import Luci.ResultDB.JsonResults

/-!
# `isolated download`

`Parse` checks the flags of `isolated download`: no positional argument, a hash to download, and a
cache directory for any cache limit that is not its default. `main` downloads the tree, writes the
names of the files the downloader reported to the file `-output-files` names, one per line, and
then the JSON of the results to the file `-fetch-and-map-result-json` names.

The defaults pass `Parse` once a hash is given. The list `main` writes, split at its newlines as
`strings.Split` does, gives back the names in the order the downloader reported them, and one empty
string after the last newline, when no name holds a newline.
-/

namespace Luci.Isolated

open Luci.ResultDB.Formats (split splitChars)

/-- `maxUint`, `^uint(0)` where `uint` has 64 bits. -/
def maxUint : UInt64 := ~~~0

/-- `maxInt`, `int(maxUint >> 1)`. -/
def maxInt : Int := (maxUint >>> 1).toNat

/-- `cacheMaxSizeDefault`, `math.MaxInt64`. -/
def cacheMaxSizeDefault : Int := 9223372036854775807

/-- `cacheMaxItemsDefault`. -/
def cacheMaxItemsDefault : Int := maxInt

/-- The fields of `downloadRun` that `Parse` and `main` read. -/
structure DownloadRun where
  outputDir : String
  outputFiles : String
  isolated : String
  resultJSON : String
  cacheDir : String
  maxSize : Int
  maxItems : Int
  minFreeSpace : Int

/-- The flags as `cmdDownload` registers them. -/
def DownloadRun.defaults : DownloadRun :=
  { outputDir := ".", outputFiles := "", isolated := "", resultJSON := "", cacheDir := "",
    maxSize := cacheMaxSizeDefault, maxItems := cacheMaxItemsDefault, minFreeSpace := 0 }

/-- `downloadRun.Parse`, given what `commonFlags.Parse` returns. -/
def DownloadRun.parse (commonParse : Except String Unit) (c : DownloadRun) (args : List String) :
    Except String Unit :=
  match commonParse with
  | .error err => .error err
  | .ok () =>
    if args.length ≠ 0 then .error "position arguments not expected"
    else if c.isolated = "" then .error "isolated is required"
    else if c.cacheDir = "" ∧ (c.maxSize ≠ cacheMaxSizeDefault ∨ c.maxItems ≠ cacheMaxItemsDefault ∨
        c.minFreeSpace ≠ 0) then
      .error ("cache-dir is necessary when cache-max-size, cache-max-items or " ++
        "cache-min-free-space are specified")
    else .ok ()

theorem DownloadRun.parse_ok_iff {commonParse : Except String Unit} {c : DownloadRun}
    {args : List String} :
    c.parse commonParse args = .ok () ↔
      commonParse = .ok () ∧ args = [] ∧ c.isolated ≠ "" ∧
        (c.cacheDir = "" → c.maxSize = cacheMaxSizeDefault ∧ c.maxItems = cacheMaxItemsDefault ∧
          c.minFreeSpace = 0) := by
  rcases commonParse with err | ⟨⟩
  · simp [DownloadRun.parse]
  · simp only [DownloadRun.parse, List.length_eq_zero]
    split_ifs <;> simp_all
    tauto

theorem DownloadRun.parse_defaults {hash : String} (h : hash ≠ "") :
    { DownloadRun.defaults with isolated := hash }.parse (.ok ()) [] = .ok () :=
  DownloadRun.parse_ok_iff.mpr ⟨rfl, rfl, h, fun _ => ⟨rfl, rfl, rfl⟩⟩

/-! ## The list of downloaded files -/

/-- What `main` writes to `-output-files`: `strings.Join(files, "\n")`, and a newline after the last
name. -/
def filesData (files : List String) : String :=
  "\n".intercalate files ++ if files.length > 0 then "\n" else ""

theorem intercalate_go_data (acc s : String) (l : List String) :
    (String.intercalate.go acc s l).data =
      acc.data ++ (l.map fun a => s.data ++ a.data).flatten := by
  induction l generalizing acc with
  | nil => simp [String.intercalate.go]
  | cons a l ih => simp [String.intercalate.go, ih]

theorem filesData_data (files : List String) :
    (filesData files).data = (files.map fun f => f.data ++ ['\n']).flatten := by
  rcases files with _ | ⟨f, files⟩
  · rfl
  · have key : ∀ (x : List Char) (l : List String),
        x ++ (l.map fun a => '\n' :: a.data).flatten ++ ['\n'] =
          x ++ ['\n'] ++ (l.map fun f => f.data ++ ['\n']).flatten := by
      intro x l
      induction l generalizing x with
      | nil => simp
      | cons a l ih => simpa using ih (x ++ '\n' :: a.data)
    simpa [filesData, String.intercalate, intercalate_go_data] using key f.data files

theorem splitChars_append {sep : Char} {w : List Char} (hw : sep ∉ w) (rest : List Char) :
    splitChars sep (w ++ sep :: rest) = w :: splitChars sep rest := by
  induction w with
  | nil => simp [splitChars]
  | cons c w ih =>
    have hc : c ≠ sep := fun h => hw (h ▸ List.mem_cons_self _ _)
    rw [List.cons_append, splitChars, if_neg hc, ih (fun h => hw (List.mem_cons_of_mem _ h))]

theorem split_filesData {files : List String} (hnl : ∀ f ∈ files, '\n' ∉ f.data) :
    split (filesData files) '\n' = files ++ [""] := by
  rw [split, String.toList, filesData_data]
  induction files with
  | nil => rfl
  | cons f files ih =>
    rw [List.map_cons, List.flatten_cons, List.append_assoc, List.singleton_append,
      splitChars_append (hnl f (List.mem_cons_self _ _)), List.map_cons,
      ih fun g hg => hnl g (List.mem_cons_of_mem _ hg)]
    rfl

/-! ## `main` -/

/-- What `downloadRun.main` gets from outside: what `createAuthClient`, the `os.MkdirAll` of the
cache directory, `cache.NewDisk`, the `os.MkdirAll` of the output directory and `dl.Wait` return,
the names the downloader passed to `FileCallback` in the order of the calls, what
`ioutil.WriteFile` returns for a path and data, and, for `outputResults`, what
`downloader.GetCacheStats`, `dl.RootIsolated` and `json.Marshal` return. -/
structure DownloadDeps where
  createAuthClient : Except String Unit
  mkdirCache : Except String Unit
  newDisk : Except String Unit
  mkdirOutput : Except String Unit
  wait : Except String Unit
  files : List String
  writeFile : String → String → Except String Unit
  getCacheStats : Except String Unit
  rootIsolated : Except String Unit
  marshal : Except String String

/-- `main` until the download is over. -/
def DownloadRun.prepare (d : DownloadDeps) (c : DownloadRun) : Except String Unit := do
  d.createAuthClient
  if c.cacheDir ≠ "" then
    d.mkdirCache.mapError ("failed to create cache dir: " ++ c.cacheDir ++ ": " ++ ·)
    d.newDisk
  d.mkdirOutput.mapError ("failed to create output dir: " ++ c.outputDir ++ ": " ++ ·)
  d.wait.mapError ("failed to call FetchIsolated(): " ++ ·)

/-- `downloadRun.outputResults`: the files it wrote, and what it returns. -/
def DownloadRun.outputResults (d : DownloadDeps) (c : DownloadRun) :
    List (String × String) × Except String Unit :=
  if c.resultJSON = "" then ([], .ok ())
  else
    match d.getCacheStats, d.rootIsolated, d.marshal with
    | .error err, _, _ => ([], .error ("failed to call GetCacheStats: " ++ err))
    | .ok (), .error err, _ => ([], .error ("failed to get root isolated: " ++ err))
    | .ok (), .ok (), .error err => ([], .error ("failed to marshal result json: " ++ err))
    | .ok (), .ok (), .ok resultJSON =>
      match d.writeFile c.resultJSON resultJSON with
      | .error err =>
        ([], .error ("failed to write result json to " ++ c.resultJSON ++ ": " ++ err))
      | .ok () => ([(c.resultJSON, resultJSON)], .ok ())

/-- `downloadRun.main`: the files it wrote, as paths and data in the order of the writes, and what
it returns. A failed `ioutil.WriteFile` may leave any part of its data, so only the writes that
succeeded are recorded. -/
def DownloadRun.main (d : DownloadDeps) (c : DownloadRun) :
    List (String × String) × Except String Unit :=
  match c.prepare d with
  | .error err => ([], .error err)
  | .ok () =>
    if c.outputFiles ≠ "" then
      match d.writeFile c.outputFiles (filesData d.files) with
      | .error err =>
        ([], .error ("failed to call WriteFile(" ++ c.outputFiles ++ ", ...): " ++ err))
      | .ok () =>
        ((c.outputFiles, filesData d.files) :: (c.outputResults d).1, (c.outputResults d).2)
    else c.outputResults d

theorem main_outputFiles_roundtrip {d : DownloadDeps} {c : DownloadRun} {data : String}
    (hw : (c.outputFiles, data) ∈ (c.main d).1) (hother : c.resultJSON ≠ c.outputFiles)
    (hnl : ∀ f ∈ d.files, '\n' ∉ f.data) : split data '\n' = d.files ++ [""] := by
  have hres : ∀ w ∈ (c.outputResults d).1, w.1 = c.resultJSON := by
    unfold DownloadRun.outputResults
    split_ifs
    · simp
    · split <;> (try split) <;> simp
  suffices data = filesData d.files from this ▸ split_filesData hnl
  unfold DownloadRun.main at hw
  split at hw
  · cases hw
  split_ifs at hw
  · split at hw
    · cases hw
    · rcases List.mem_cons.mp hw with h | h
      · exact (Prod.mk.inj h).2
      · exact absurd (hres _ h) (Ne.symm hother)
  · exact absurd (hres _ hw) (Ne.symm hother)

def sampleDeps : DownloadDeps :=
  { createAuthClient := .ok (), mkdirCache := .ok (), newDisk := .ok (), mkdirOutput := .ok (),
    wait := .ok (), files := ["out/a.txt", "out/b.bin"], writeFile := fun _ _ => .ok (),
    getCacheStats := .ok (), rootIsolated := .ok (), marshal := .ok "\x7b\x7d" }

def sampleRun : DownloadRun :=
  { DownloadRun.defaults with
    isolated := "deadbeef", cacheDir := "cache", outputFiles := "files.txt",
    resultJSON := "result.json" }

theorem main_outputFiles_sample :
    (sampleRun.main sampleDeps).1 =
        [("files.txt", "out/a.txt\nout/b.bin\n"), ("result.json", "\x7b\x7d")] ∧
      split "out/a.txt\nout/b.bin\n" '\n' = ["out/a.txt", "out/b.bin", ""] :=
  ⟨rfl, main_outputFiles_roundtrip (d := sampleDeps) (c := sampleRun) (by decide) (by decide)
    (by decide)⟩

end Luci.Isolated
