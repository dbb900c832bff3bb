import PwndaWallet.Bridge.Sweep
import PwndaWallet.Evm.Signer
import PwndaWallet.Lib.Fs
import PwndaWallet.Lib.Path
import PwndaWallet.Lib.Solo
import PwndaWallet.Lib.Text

/-!
# Restoring a chain snapshot

`restore_snapshot` of `snapshot.rs` and what it calls. The network and the file system answer; ed25519, SHA-256, the
readers of JSON, of xz and of tar are the library's. Paths are those below the data directory.
-/

namespace Snapshot

open Rust Tasks Tasks.Path Tasks.Tree Wire

/-! ## The manifest -/

structure ArchiveInfo where
  name : String
  codec : String
  size : Nat
  sha256 : String
  zstdWindowLog : Option Nat
deriving DecidableEq

structure TipInfo where
  height : Nat
  hash : String
deriving DecidableEq

structure SnapshotManifest where
  schema : Nat
  snapshotId : String
  createdAt : String
  particldVersion : String
  archive : ArchiveInfo
  tip : Option TipInfo
  chainstateMuhash : Option String
  minWalletVersion : Option String
deriving DecidableEq

inductive SnapshotRefusal where
  | schemaTooNew (found understood : Nat)
  | wrongDaemon (manifest ours : String)
  | hashMismatch (expected got : String)
  | sizeMismatch (expected got : Nat)
  | undecodableWindow (windowLog : Nat)
  | chainAlreadyPresent
  | unsafeEntry (path : String)
  | badSignature
  | missingSignature
deriving DecidableEq

def first12 (s : String) : String := String.ofList (s.toList.take 12)

def SnapshotRefusal.describe : SnapshotRefusal → String
  | .schemaTooNew found understood =>
    s!"this snapshot uses manifest schema {found} and this wallet understands {understood}. " ++
      "Update the wallet, or sync from the network instead."
  | .wrongDaemon manifest ours =>
    s!"the snapshot was built for Particl {manifest} and this wallet ships {ours}. " ++
      "A chain database belongs to the daemon that wrote it, so this one is not usable here."
  | .hashMismatch expected got =>
    s!"the download does not match the manifest (expected {first12 expected}…, got {first12 got}…). " ++
      "Nothing was written; syncing from the network is unaffected."
  | .sizeMismatch expected got =>
    s!"the download is {got} bytes and the manifest says {expected}. Nothing was written."
  | .undecodableWindow windowLog =>
    s!"the snapshot needs a {2 ^ (windowLog % 64) / 1048576} MB decompression window, which this wallet will not " ++
      "allocate. That is a producer error, not something you can fix here."
  | .chainAlreadyPresent =>
    "this node already has a Particl chain, and a snapshot is only ever written into an empty datadir. " ++
      "Nothing was touched."
  | .unsafeEntry path =>
    s!"the archive contains {path}, which a chain snapshot must never carry. Refused without unpacking."
  | .badSignature =>
    "this snapshot is not signed by the key this wallet trusts. Nothing was downloaded. Syncing from the network is " ++
      "unaffected."
  | .missingSignature =>
    "this snapshot has no signature. Nothing was downloaded; the node will sync from the network instead."

def MAX_MANIFEST_BYTES : Nat := 64 * 1024
def MAX_ARCHIVE_BYTES : Nat := 4 * 1024 * 1024 * 1024
def MAX_UNPACKED_BYTES : Nat := 6 * 1024 * 1024 * 1024
def MANIFEST_SCHEMA : Nat := 1
def MAX_ZSTD_WINDOW_LOG : Nat := 27
def SNAPSHOT_PUBKEY_HEX : String := "18b38db66aeceae79cbdf583c3ead1685585d20c01f33f45cceb261356da6a87"

structure TarEntry where
  path : String
  /-- of a regular file -/
  content : Option Bytes

/-- What is the library's, and the system's: `ed25519` reads a key, `join` continues the data directory's path. -/
structure Host where
  ed25519 : Bytes → Option (Bytes → Bytes → Bool)
  sha256 : Bytes → Bytes
  parse : String → Except String SnapshotManifest
  xz : Bytes → Except String Bytes
  tar : Bytes → Except String (List (Except String (Except String TarEntry)))
  join : String → TreePath
  isSep : Char → Bool
  display : TreePath → String
  statusText : Nat → String

section

variable (env : Host)

def ofLength (n : Nat) (b : Bytes) : Option Bytes := if b.length = n then some b else none

def checkSignature (manifestBytes : Bytes) (sigHex : Option String) : Except SnapshotRefusal Unit :=
  match (sigHex.map trim).filter (· ≠ "") with
  | none => .error .missingSignature
  | some sigHex =>
    match (Evm.hexDecode SNAPSHOT_PUBKEY_HEX.toList).bind (ofLength 32) with
    | none => .error .badSignature
    | some pk =>
      match env.ed25519 pk with
      | none => .error .badSignature
      | some verify =>
        match (Evm.hexDecode sigHex.toList).bind (ofLength 64) with
        | none => .error .badSignature
        | some sig => if verify manifestBytes sig then .ok () else .error .badSignature

def decodableWindow (info : ArchiveInfo) : Bool := info.zstdWindowLog.all (· ≤ MAX_ZSTD_WINDOW_LOG)

def checkManifest (m : SnapshotManifest) (ourParticld : String) : Except SnapshotRefusal Unit :=
  if m.schema > MANIFEST_SCHEMA then .error (.schemaTooNew m.schema MANIFEST_SCHEMA)
  else if m.particldVersion ≠ ourParticld then .error (.wrongDaemon m.particldVersion ourParticld)
  else if !decodableWindow m.archive then .error (.undecodableWindow (m.archive.zstdWindowLog.getD 0))
  else .ok ()

def checkArchive (m : SnapshotManifest) (gotSize : Nat) (gotSha256 : String) : Except SnapshotRefusal Unit :=
  if gotSize ≠ m.archive.size then .error (.sizeMismatch m.archive.size gotSize)
  else if !eqIgnoreAsciiCase gotSha256 m.archive.sha256 then .error (.hashMismatch m.archive.sha256 gotSha256)
  else .ok ()

/-! ## Entries -/

def saneEntry (entry : List Char) : Bool :=
  let components := components isSlash entry
  if components.contains .rootDir || components.contains .parentDir then false
  else
    match components.head? with
    | some (.normal first) => first == "blocks".toList || first == "chainstate".toList
    | _ => false

/-- `replace('\\', "/")` -/
def forward (s : List Char) : List Char := s.map fun c => if c = '\\' then '/' else c

/-! ## What is asked -/

structure Response where
  status : Nat
  contentLength : Option Nat
  text : Except String String

inductive DecompressError where
  | openSource (e : String)
  | createTarget (e : String)
  | xz (e : String)
  | flush (e : String)
  | read (e : String)

inductive ReadError where
  | openFile (e : String)
  | archive (e : String)

inductive SnapOp where
  | exists_ (p : TreePath)
  | httpClient
  | getManifest
  | getSignature
  | getArchive (name : String)
  /-- the next piece of the archive, if there is one -/
  | chunk
  | createDirs (p : TreePath)
  | create (p : TreePath)
  | append (p : TreePath) (bytes : Bytes)
  | metadata (p : TreePath)
  | remove (p : TreePath)
  /-- the bytes that were hashed, once the whole of them is decompressed -/
  | decompress (source target : TreePath)
  | entries (p : TreePath)
  | unpack (source target : TreePath)

abbrev SnapOp.Ans : SnapOp → Type
  | .exists_ _ => Bool
  | .httpClient => Except String Unit
  | .getManifest | .getSignature => Except String Response
  | .getArchive _ => Except String Nat
  | .chunk => Option (Except String Bytes)
  | .createDirs _ | .create _ | .append _ _ | .remove _ => Except String Unit
  | .metadata _ => Except String Nat
  | .decompress _ _ => Except DecompressError Bytes
  | .entries _ => Except ReadError (List (Except String (Except String String)))
  | .unpack _ _ => Except ReadError Unit

abbrev SnapM (α : Type) := Prog SnapOp SnapOp.Ans String α

/-! ## Checks of the data directory -/

def particlDir : TreePath := ["particl"]

def blocks : TreePath := particlDir ++ ["blocks"]

def chainstate : TreePath := particlDir ++ ["chainstate"]

def mayRestoreInto : SnapM Unit :=
  .call (.exists_ blocks) fun there =>
    if there then .fail (SnapshotRefusal.describe .chainAlreadyPresent)
    else
      .call (.exists_ chainstate) fun there =>
        if there then .fail (SnapshotRefusal.describe .chainAlreadyPresent) else .ret ()

/-- `with_extension` -/
def withExtension (p : TreePath) (extension : String) : TreePath :=
  match p.getLast? with
  | none => p
  | some name => p.dropLast ++ [((Fs.splitExtension name).map (·.1)).getD name ++ "." ++ extension]

/-! ## Unpacking -/

def DecompressError.text (source target : TreePath) : DecompressError → String
  | .openSource e => s!"snapshot: cannot open {env.display source}: {e}"
  | .createTarget e => s!"snapshot: cannot create {env.display target}: {e}"
  | .xz e => s!"snapshot: xz decompress failed: {e}"
  | .flush e => s!"snapshot: cannot flush {env.display target}: {e}"
  | .read e => s!"snapshot: cannot read {env.display source}: {e}"

def decompressAndVerify (source : TreePath) (expectedSha256 : String) (target : TreePath) : SnapM Unit :=
  .call (.decompress source target) fun
    | .error e => .fail (e.text env source target)
    | .ok bytes =>
      let got := Bridge.hexEncode (env.sha256 bytes)
      if !eqIgnoreAsciiCase got expectedSha256 then
        .fail (SnapshotRefusal.describe (.hashMismatch expectedSha256 got))
      else .ret ()

/-- The first pass over the entries, which counts them. -/
def inspect : List (Except String (Except String String)) → Nat → Except String Nat
  | [], entries => .ok entries
  | .error e :: _, _ => .error s!"snapshot: bad archive entry: {e}"
  | .ok (.error e) :: _, _ => .error s!"snapshot: unreadable entry path: {e}"
  | .ok (.ok path) :: list, entries =>
    if !saneEntry (forward path.toList) then
      .error (SnapshotRefusal.describe (.unsafeEntry (String.ofList (forward path.toList))))
    else inspect list (entries + 1)

/-- The second pass, which writes. -/
def place (tarPath : TreePath) (entries : Nat) : SnapM Nat :=
  .call (.createDirs particlDir) fun
    | .error e => .fail s!"snapshot: cannot create {env.display particlDir}: {e}"
    | .ok _ =>
      .call (.unpack tarPath particlDir) fun
        | .error (.openFile e) => .fail s!"snapshot: cannot open {env.display tarPath}: {e}"
        | .error (.archive e) => .fail s!"snapshot: unpack failed: {e}"
        | .ok _ => .ret entries

/-- What is done while the decompressed archive is there. -/
def unpackThrough (source tarPath : TreePath) (expectedSha256 : String) : SnapM Nat :=
  (decompressAndVerify env source expectedSha256 tarPath).bind fun _ =>
    .call (.entries tarPath) fun
      | .error (.openFile e) => .fail s!"snapshot: cannot open {env.display tarPath}: {e}"
      | .error (.archive e) => .fail s!"snapshot: cannot read archive: {e}"
      | .ok list =>
        (Prog.ofExcept (inspect list 0)).bind fun entries =>
          if entries = 0 then .fail "snapshot: the archive is empty" else place env tarPath entries

def unpackSnapshot (source : TreePath) (expectedSha256 : String) : SnapM Nat :=
  mayRestoreInto.bind fun _ =>
    let tarPath := withExtension source "tar.part"
    .call (.remove tarPath) fun _ =>
      (unpackThrough env source tarPath expectedSha256).handle fun out =>
        .call (.remove tarPath) fun _ => .ofExcept out

/-! ## Fetching -/

def isSuccess (status : Nat) : Bool := 200 ≤ status && status < 300

/-- The signature, if the server has one. -/
def signatureOf : Except String Response → Option String
  | .ok r => if isSuccess r.status then r.text.toOption else none
  | .error _ => none

def fetchManifest (baseUrl : String) : SnapM SnapshotManifest :=
  .call .httpClient fun
    | .error e => .fail s!"snapshot: http client: {e}"
    | .ok _ =>
      let url := baseUrl ++ "/manifest.json"
      .call .getManifest fun
        | .error e => .fail s!"snapshot: cannot reach {url}: {e}"
        | .ok resp =>
          if !isSuccess resp.status then
            .fail s!"snapshot: {url} returned HTTP {env.statusText resp.status} — no snapshot is published, or the tag moved"
          else if resp.contentLength.getD 0 > MAX_MANIFEST_BYTES then
            .fail "snapshot: the manifest is implausibly large; refusing to read it"
          else
            match resp.text with
            | .error e => .fail s!"snapshot: cannot read manifest: {e}"
            | .ok body =>
              .call .getSignature fun sig =>
                match checkSignature env body.toUTF8.toList (signatureOf sig) with
                | .error e => .fail e.describe
                | .ok _ =>
                  .ofExcept ((env.parse body).mapError fun e =>
                    s!"snapshot: manifest is not valid JSON for this build: {e}")

/-- The loop over the download, of which so many pieces are followed. -/
def downloadStream (m : SnapshotManifest) (dest : TreePath) : Nat → Bytes → SnapM String
  | 0, _ => .cut
  | chunks + 1, hashed =>
    .call .chunk fun
      | none => .ret (Bridge.hexEncode (env.sha256 hashed))
      | some (.error e) => .fail s!"snapshot: download stream error: {e}"
      | some (.ok chunk) =>
        if hashed.length + chunk.length > m.archive.size then
          .call (.remove dest) fun _ =>
            .fail s!"snapshot: the download is longer than the manifest's {m.archive.size} bytes; stopped"
        else
          .call (.append dest chunk) fun
            | .error e => .fail s!"snapshot: cannot write {env.display dest}: {e}"
            | .ok _ => downloadStream m dest chunks (hashed ++ chunk)

def downloadArchive (baseUrl : String) (m : SnapshotManifest) (dest : TreePath) (chunks : Nat) : SnapM String :=
  if m.archive.size > MAX_ARCHIVE_BYTES then
    .fail s!"snapshot: the manifest claims {m.archive.size} bytes, past this wallet's ceiling"
  else
    let url := baseUrl ++ "/" ++ m.archive.name
    .call .httpClient fun
      | .error e => .fail s!"snapshot: http client: {e}"
      | .ok _ =>
        .call (.getArchive m.archive.name) fun
          | .error e => .fail s!"snapshot: cannot reach {url}: {e}"
          | .ok status =>
            if !isSuccess status then .fail s!"snapshot: {url} returned HTTP {env.statusText status}"
            else
              .call (.createDirs dest.dropLast) fun
                | .error e => .fail s!"snapshot: cannot create {env.display dest.dropLast}: {e}"
                | .ok _ =>
                  .call (.create dest) fun
                    | .error e => .fail s!"snapshot: cannot create {env.display dest}: {e}"
                    | .ok _ => downloadStream env m dest chunks []

/-! ## The restore -/

def partPath (m : SnapshotManifest) : TreePath := env.join (m.archive.name ++ ".part")

/-- Everything from the download on. -/
def restoreFrom (baseUrl : String) (m : SnapshotManifest) (chunks : Nat) : SnapM String :=
  let tmp := partPath env m
  (downloadArchive env baseUrl m tmp chunks).bind fun gotHash =>
    .call (.metadata tmp) fun gotSize =>
      match checkArchive m (Except.toOption gotSize |>.getD 0) gotHash with
      | .error e => .call (.remove tmp) fun _ => .fail e.describe
      | .ok _ =>
        (unpackSnapshot env tmp m.archive.sha256).handle fun out =>
          .call (.remove tmp) fun _ => .ofExcept (out.map fun _ => m.snapshotId)

def restoreSnapshot (baseUrl ourParticld : String) (chunks : Nat) : SnapM String := do
  mayRestoreInto
  let m ← fetchManifest env baseUrl
  Prog.ofExcept ((checkManifest m ourParticld).mapError SnapshotRefusal.describe)
  restoreFrom env baseUrl m chunks

/-- What is asked at the next start of the node. -/
def chainAwaitingFirstPrepare {β : Type} (t : FileTree β) : Bool :=
  (t blocks).isSome && (t ["basicswap.json"]).isNone

def rollbackPaths : List TreePath := [blocks, chainstate]

/-! ## The file system -/

/-- Where an entry goes. -/
def targetOf (dir : TreePath) (path : String) : TreePath :=
  dir ++ (names (components env.isSep path.toList)).map String.ofList

/-- What the entries' paths name, with the folders on the way. -/
def Reaches (dir : TreePath) (es : List TarEntry) (p : TreePath) : Prop :=
  ∃ e ∈ es, ∃ q, q ≠ [] ∧ dir ++ q <+: targetOf env dir e.path ∧ p = dir ++ q

/-- Every file of the archive that no other entry is put in the place of is there. -/
def Holds (dir : TreePath) (es : List TarEntry) (t : FileTree Bytes) : Prop :=
  ∀ e ∈ es, ∀ c, e.content = some c → (∀ e' ∈ es, targetOf env dir e'.path = targetOf env dir e.path → e' = e) →
    t (targetOf env dir e.path) = some (.file c)

/-- What an operation can be answered, and what it does to the files. -/
def SnapOp.does : (o : SnapOp) → o.Ans → FileTree Bytes → FileTree Bytes → Prop
  | .exists_ p, there, t, t' => there = (t p).isSome ∧ t' = t
  | .createDirs p, _, t, t' => Frame (fun q => q <+: p ∧ t q = none) t t'
  | .create p, .ok _, t, t' => t' = t.put p (.file [])
  | .append p b, .ok _, t, t' => ∃ old, t p = some (.file old) ∧ t' = t.put p (.file (old ++ b))
  | .append p _, .error _, t, t' => Frame (· = p) t t'
  | .metadata p, .ok n, t, t' => (∃ c, t p = some (.file c) ∧ n = c.length) ∧ t' = t
  | .remove p, .ok _, t, t' => t' = t.erase p
  | .decompress source target, .ok c, t, t' =>
    t source = some (.file c) ∧
      ∃ out, env.xz c = .ok out ∧ out.length ≤ MAX_UNPACKED_BYTES ∧ t' = t.put target (.file out)
  | .decompress _ target, .error _, t, t' => Frame (· = target) t t'
  | .entries p, .ok list, t, t' =>
    (∃ c es, t p = some (.file c) ∧ env.tar c = .ok es ∧
      list = es.map (Except.map (Except.map TarEntry.path))) ∧ t' = t
  | .unpack source target, r, t, t' =>
    t' = t ∧ r.isOk = false ∨
      ∃ c es, t source = some (.file c) ∧ env.tar c = .ok es ∧
        ∀ oks, es = oks.map (fun e => .ok (.ok e)) → Frame (Reaches env target oks) t t' ∧ (r.isOk = true → Holds env target oks t')
  | _, _, t, t' => t' = t

end

end Snapshot
