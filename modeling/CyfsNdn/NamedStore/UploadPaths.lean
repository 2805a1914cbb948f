import CyfsNdn.Collections.LexicalPath
import CyfsNdn.NamedStore.UploadFaults
import CyfsNdn.NdnLib.HeaderCodec
import Mathlib.Data.Nat.Digits.Lemmas

/-!
# Where uploads collect their bytes

A session collects its bytes in `{cache_dir}/{app_id}/{session_id}_{chunk_index}.tmp`, and
the name of the application is what the client wrote in `Upload-Metadata`.  The logical path
is checked and names no file; the name of the application is not checked, so the file is
below the cache directory exactly when the path `app_id` stays there.  The name of the file
has the number of the session, so no two sessions share a file.
-/

namespace CyfsNdn
namespace NamedStore

open Collections LexicalPath NdnLib Relational Transition

/-! ## The headers of a creation -/

/-- `char::is_whitespace`. -/
def isWhitespace (c : Char) : Bool :=
  (9 ≤ c.toNat && c.toNat ≤ 13) || (0x2000 ≤ c.toNat && c.toNat ≤ 0x200a) ||
    [0x20, 0x85, 0xa0, 0x1680, 0x2028, 0x2029, 0x202f, 0x205f, 0x3000].contains c.toNat

/-- `str::trim`. -/
def trim (text : List Char) : List Char :=
  (((text.dropWhile isWhitespace).reverse).dropWhile isWhitespace).reverse

/-- `str::split_once`. -/
def splitOnce (c : Char) : List Char → Option (List Char × List Char)
  | [] => none
  | d :: rest =>
      if d = c then some ([], rest)
      else (splitOnce c rest).map fun parts => (d :: parts.1, parts.2)

/-- `base64_decode`; `decode` is the decoder of the standard alphabet. -/
def base64Decode (decode : String → Option (List UInt8)) (s : String) : Option String :=
  (decode s).bind ObjId.stringFromUtf8

/-- A field of `Upload-Metadata`: `key base64value`, or `key=value`.  A value that is no
base64 stays as it is. -/
def metadataField (decode : String → Option (List UInt8)) (pair : List Char) :
    Option (String × String) :=
  match splitOnce ' ' pair with
  | some (key, encoded) =>
      let raw := String.ofList (trim encoded)
      some (String.ofList (trim key), (base64Decode decode raw).getD raw)
  | none =>
      (splitOnce '=' pair).map fun parts =>
        (String.ofList (trim parts.1), String.ofList (trim parts.2))

/-- The fields of `Upload-Metadata`, in their order. -/
def metadataFields (decode : String → Option (List UInt8)) (raw : String) :
    List (String × String) :=
  (((raw.toList.splitOn ',').map trim).filter fun pair => !pair.isEmpty).filterMap
    (metadataField decode)

/-- A header as a text, where it is one. -/
def headerText (headers : HeaderMap) (name : String) : Option String :=
  (headers.lookup name).bind headerValueToStr

/-- `parse::<u32>`. -/
def parseU32 (text : String) : Option UInt32 :=
  ((parseUsize text).filter (· < 2 ^ 32)).map UInt32.ofNat

/-- `parse_upload_metadata`.  A field that comes twice has its last value. -/
def parseUploadMetadata (decode : String → Option (List UInt8)) (headers : HeaderMap) :
    NdnResult UploadMetadata :=
  match headerText headers "upload-metadata" with
  | none => .error (.invalidParam "missing Upload-Metadata header")
  | some raw =>
      let get := fun field => (metadataFields decode raw).reverse.lookup field
      match get "app_id", get "logical_path" with
      | none, _ => .error (.invalidParam "Upload-Metadata missing app_id")
      | some _, none => .error (.invalidParam "Upload-Metadata missing logical_path")
      | some appId, some logicalPath =>
          .ok ⟨appId, logicalPath, get "file_hash",
            ((get "chunk_index").bind parseU32).getD 0, get "chunk_hash"⟩

/-- What `handle_create_upload` reads of the headers. -/
def createRequest (decode : String → Option (List UInt8)) (headers : HeaderMap) :
    CreateRequest where
  uploadLength := (headerText headers "upload-length").bind parseUsize
  metadata := parseUploadMetadata decode headers
  rawMetadata := (headerText headers "upload-metadata").getD ""
  ndmUploadId := headerText headers "ndm-upload-id"

/-! ## The names of the files -/

/-- `{:0width$x}`, for a width that is not zero. -/
def hexPadded (width n : Nat) : List Char :=
  ((Nat.digits 16 n ++ List.replicate (width - (Nat.digits 16 n).length) 0).map
    Nat.digitChar).reverse

/-- The text of a session id. -/
def SessionId.text (sid : SessionId) : List Char :=
  "us_".toList ++ hexPadded 16 (sid.millis % 2 ^ 64) ++ '_' :: hexPadded 8 sid.seq

/-- The name of a temporary file. -/
def TempFilePath.fileName (path : TempFilePath) : List Char :=
  path.sessionId.text ++ '_' :: (toString path.chunkIndex.toNat).toList ++ ".tmp".toList

/-- The path of a temporary file, as a text. -/
def TempFilePath.text (cacheDir : List Char) (path : TempFilePath) : List Char :=
  join (join cacheDir path.appId.toList) path.fileName

/-- Where the file is, once `.`, `..` and absolute parts are resolved. -/
def TempFilePath.location (cwd : List Name) (cacheDir : List Char) (path : TempFilePath) :
    List Name :=
  resolve cwd (path.text cacheDir)

/-- The value of a digit. -/
def hexValue (c : Char) : Nat :=
  if '0' ≤ c ∧ c ≤ '9' then c.toNat - '0'.toNat else c.toNat - 'a'.toNat + 10

theorem hexValue_digitChar {d : Nat} (h : d < 16) : hexValue (Nat.digitChar d) = d := by
  revert d
  decide

/-- The digits of a number give it back. -/
theorem ofDigits_hexPadded (width n : Nat) :
    Nat.ofDigits 16 ((hexPadded width n).reverse.map hexValue) = n := by
  have hdigits : (hexPadded width n).reverse.map hexValue =
      Nat.digits 16 n ++ List.replicate (width - (Nat.digits 16 n).length) 0 := by
    unfold hexPadded
    rw [List.reverse_reverse, List.map_map]
    conv_rhs => rw [← List.map_id (Nat.digits 16 n ++ _)]
    apply List.map_congr_left
    intro d hd
    apply hexValue_digitChar
    rcases List.mem_append.mp hd with hd | hd
    · exact Nat.digits_lt_base (by decide) hd
    · rw [List.eq_of_mem_replicate hd]
      decide
  rw [hdigits, Nat.ofDigits_append, Nat.ofDigits_replicate_zero, Nat.mul_zero, Nat.add_zero,
    Nat.ofDigits_digits]

theorem hexPadded_injective (width : Nat) : Function.Injective (hexPadded width) := by
  intro m n h
  rw [← ofDigits_hexPadded width m, h, ofDigits_hexPadded]

/-- A digit is no separator. -/
theorem mem_hexPadded {width n : Nat} {c : Char} (hc : c ∈ hexPadded width n) :
    c ≠ '_' ∧ c ≠ '/' := by
  unfold hexPadded at hc
  obtain ⟨d, hd, rfl⟩ := List.mem_map.mp (List.mem_reverse.mp hc)
  have hlt : d < 16 := by
    rcases List.mem_append.mp hd with hd | hd
    · exact Nat.digits_lt_base (by decide) hd
    · rw [List.eq_of_mem_replicate hd]
      decide
  clear hc hd
  revert d
  decide

/-- The name, cut at its separators. -/
theorem splitOn_fileName (path : TempFilePath) :
    path.fileName.splitOn '_' =
      ["us".toList, hexPadded 16 (path.sessionId.millis % 2 ^ 64), hexPadded 8 path.sessionId.seq,
        (toString path.chunkIndex.toNat).toList ++ ".tmp".toList] := by
  have hname : path.fileName = "us".toList ++ '_' ::
      (hexPadded 16 (path.sessionId.millis % 2 ^ 64) ++ '_' ::
        (hexPadded 8 path.sessionId.seq ++ '_' ::
          ((toString path.chunkIndex.toNat).toList ++ ".tmp".toList))) := by
    simp [TempFilePath.fileName, SessionId.text]
  have hhex : ∀ width n, '_' ∉ hexPadded width n := fun _ _ hc => (mem_hexPadded hc).1 rfl
  have hlast : '_' ∉ (toString path.chunkIndex.toNat).toList ++ ".tmp".toList := by
    intro hc
    rcases List.mem_append.mp hc with hdigit | htmp
    · rw [toList_toString_nat] at hdigit
      exact absurd (digit_of_mem_toDigits hdigit).2 (by decide)
    · revert htmp
      decide
  rw [hname, List.splitOn_append_cons_self, List.splitOn_append_cons_self,
    List.splitOn_append_cons_self, List.splitOn_eq_singleton (hhex _ _),
    List.splitOn_eq_singleton (hhex _ _), List.splitOn_eq_singleton hlast,
    List.splitOn_eq_singleton (by decide)]
  rfl

/-- Two sessions with one file name have one number. -/
theorem seq_eq_of_fileName {path path' : TempFilePath} (h : path.fileName = path'.fileName) :
    path.sessionId.seq = path'.sessionId.seq := by
  have hsplit := congrArg (List.splitOn '_') h
  rw [splitOn_fileName, splitOn_fileName] at hsplit
  simp only [List.cons.injEq] at hsplit
  exact hexPadded_injective 8 hsplit.2.2.1

theorem slash_not_mem_fileName (path : TempFilePath) : '/' ∉ path.fileName := by
  intro hc
  unfold TempFilePath.fileName SessionId.text at hc
  simp only [List.mem_append, List.mem_cons] at hc
  rcases hc with (((hus | hmillis) | hbar | hseq) | hbar | hindex) | htmp
  · revert hus
    decide
  · exact (mem_hexPadded hmillis).2 rfl
  · revert hbar
    decide
  · exact (mem_hexPadded hseq).2 rfl
  · revert hbar
    decide
  · rw [toList_toString_nat] at hindex
    exact absurd (digit_of_mem_toDigits hindex).1 (by decide)
  · revert htmp
    decide

theorem component_fileName (path : TempFilePath) :
    component path.fileName = some (.name path.fileName) := by
  have hhead : path.fileName.head? = some 'u' := by
    simp [TempFilePath.fileName, SessionId.text]
  unfold component
  rw [if_neg, if_neg]
  · intro hdots
    rw [hdots] at hhead
    cases hhead
  · rintro (hempty | hdot)
    · rw [hempty] at hhead
      cases hhead
    · rw [hdot] at hhead
      cases hhead

/-- The file is in the directory that the name of the application leads to. -/
theorem TempFilePath.location_eq (cwd : List Name) (cacheDir : List Char)
    (path : TempFilePath) :
    path.location cwd cacheDir =
      resolve cwd (join cacheDir path.appId.toList) ++ [path.fileName] :=
  resolve_join_name cwd _ (slash_not_mem_fileName path) (component_fileName path)

/-- The files of two sessions are two files. -/
theorem TempFilePath.location_ne (cwd : List Name) (cacheDir : List Char)
    {path path' : TempFilePath} (h : path.sessionId.seq ≠ path'.sessionId.seq) :
    path.location cwd cacheDir ≠ path'.location cwd cacheDir := by
  intro heq
  rw [path.location_eq, path'.location_eq] at heq
  have hnames := List.singleton_inj.mp (List.append_inj_right' heq rfl)
  exact h (seq_eq_of_fileName hnames)

/-- A file is inside the cache directory exactly when the name of its application stays
there. -/
theorem TempFilePath.below_iff (cwd : List Name) (cacheDir : List Char) (path : TempFilePath) :
    Below (resolve cwd cacheDir) (path.location cwd cacheDir) ↔
      StaysBelow (resolve cwd cacheDir) path.appId.toList := by
  rw [path.location_eq, below_append_singleton, prefix_resolve_join_iff]

/-! ## The sessions of a run -/

/-- Every session has a number of its own that was given before, and its file has its
application, its id and the index of its chunk in the path. -/
structure PathsInv (gateway : ZoneGateway) : Prop where
  fresh : ∀ s ∈ gateway.state.sessions.rows, s.sessionId.seq < gateway.state.nextSessionSeq
  distinct : ∀ s ∈ gateway.state.sessions.rows, ∀ t ∈ gateway.state.sessions.rows,
    s.sessionId.seq = t.sessionId.seq → s = t
  paths : ∀ s ∈ gateway.state.sessions.rows, ∀ path, s.tempFilePath = some path →
    path = ⟨s.appId, s.sessionId, s.chunkIndex⟩

/-- Every session was there before, with the same origin. -/
structure Descends (gateway gateway' : ZoneGateway) : Prop where
  nextSessionSeq : gateway'.state.nextSessionSeq = gateway.state.nextSessionSeq
  origin : ∀ s' ∈ gateway'.state.sessions.rows, ∃ s ∈ gateway.state.sessions.rows,
    s'.sessionId = s.sessionId ∧ s'.appId = s.appId ∧ s'.chunkIndex = s.chunkIndex ∧
      s'.tempFilePath = s.tempFilePath

/-- A creation has added a session, with the next number and a path of its own. -/
def Creates (appId : String) (gateway gateway' : ZoneGateway) : Prop :=
  ∃ (session : UploadSession) (reduced : ZoneGateway), Descends gateway reduced ∧
    session.sessionId.seq = gateway.state.nextSessionSeq ∧ session.appId = appId ∧
    (∀ path, session.tempFilePath = some path →
      path = ⟨session.appId, session.sessionId, session.chunkIndex⟩) ∧
    gateway'.state.nextSessionSeq = gateway.state.nextSessionSeq + 1 ∧
    gateway'.state.sessions = reduced.state.sessions.insertOrReplace session

section Runs

variable {crates : Crates} {gateway gateway' : ZoneGateway} {appId : String}

theorem Descends.refl (gateway : ZoneGateway) : Descends gateway gateway :=
  ⟨rfl, fun s hs => ⟨s, hs, rfl, rfl, rfl, rfl⟩⟩

theorem Descends.trans {a b c : ZoneGateway} (hab : Descends a b) (hbc : Descends b c) :
    Descends a c where
  nextSessionSeq := hbc.nextSessionSeq.trans hab.nextSessionSeq
  origin s hs := by
    obtain ⟨t, ht, hid, happ, hindex, hpath⟩ := hbc.origin s hs
    obtain ⟨u, hu, huid, huapp, huindex, hupath⟩ := hab.origin t ht
    exact ⟨u, hu, hid.trans huid, happ.trans huapp, hindex.trans huindex, hpath.trans hupath⟩

theorem Descends.of_subset (hnext : gateway'.state.nextSessionSeq = gateway.state.nextSessionSeq)
    (hrows : ∀ s ∈ gateway'.state.sessions.rows, s ∈ gateway.state.sessions.rows) :
    Descends gateway gateway' :=
  ⟨hnext, fun s hs => ⟨s, hrows s hs, rfl, rfl, rfl, rfl⟩⟩

theorem Descends.of_reduces {crates : Crates} (h : Reduces crates [] gateway gateway') :
    Descends gateway gateway' :=
  Descends.of_subset h.nextSessionSeq h.sessions

/-- One session changes, but not its origin. -/
theorem Descends.of_update (sid : SessionId) (f : UploadSession → UploadSession)
    (hf : ∀ s, (f s).sessionId = s.sessionId) (happ : ∀ s, (f s).appId = s.appId)
    (hindex : ∀ s, (f s).chunkIndex = s.chunkIndex)
    (hpath : ∀ s, (f s).tempFilePath = s.tempFilePath)
    (hnext : gateway'.state.nextSessionSeq = gateway.state.nextSessionSeq)
    (hsessions : gateway'.state.sessions = gateway.state.sessions.updateKey sid f hf) :
    Descends gateway gateway' := by
  refine ⟨hnext, ?_⟩
  intro s hs
  rw [hsessions] at hs
  have hfind := Table.find?_key_of_mem hs
  rw [Table.find?_updateKey] at hfind
  split_ifs at hfind
  · obtain ⟨t, ht, rfl⟩ := Option.map_eq_some_iff.mp hfind
    exact ⟨t, (Table.find?_eq_some_iff.mp ht).1, hf t, happ t, hindex t, hpath t⟩
  · exact ⟨s, (Table.find?_eq_some_iff.mp hfind).1, rfl, rfl, rfl, rfl⟩

theorem PathsInv.descends (h : PathsInv gateway) (hdescends : Descends gateway gateway') :
    PathsInv gateway' := by
  constructor
  · intro s hs
    obtain ⟨t, ht, hid, -⟩ := hdescends.origin s hs
    rw [hid, hdescends.nextSessionSeq]
    exact h.fresh t ht
  · intro s hs t ht hseq
    obtain ⟨s₀, hs₀, hsid, -⟩ := hdescends.origin s hs
    obtain ⟨t₀, ht₀, htid, -⟩ := hdescends.origin t ht
    have hsame := h.distinct s₀ hs₀ t₀ ht₀ (by rw [← hsid, ← htid, hseq])
    apply Table.eq_of_key_eq gateway'.state.sessions hs ht
    rw [hsid, htid, hsame]
  · intro s hs path hpath
    obtain ⟨t, ht, hid, happ, hindex, htpath⟩ := hdescends.origin s hs
    rw [hid, happ, hindex]
    exact h.paths t ht path (htpath ▸ hpath)

/-- The new session is the only one with the new number. -/
theorem PathsInv.creates (h : PathsInv gateway) (hcreates : Creates appId gateway gateway') :
    PathsInv gateway' ∧ ∀ s ∈ gateway'.state.sessions.rows,
      s.sessionId.seq = gateway.state.nextSessionSeq → s.appId = appId := by
  obtain ⟨session, reduced, hdescends, hid, happ, hpath, hnext, hsessions⟩ := hcreates
  have hreduced := h.descends hdescends
  have hrows : ∀ s ∈ gateway'.state.sessions.rows,
      s = session ∨ s ∈ reduced.state.sessions.rows := by
    intro s hs
    rw [hsessions] at hs
    rcases Table.mem_insertOrReplace.mp hs with hnew | ⟨hold, -⟩
    · exact Or.inl hnew
    · exact Or.inr hold
  have hless : ∀ s ∈ reduced.state.sessions.rows,
      s.sessionId.seq < gateway.state.nextSessionSeq := by
    intro s hs
    rw [← hdescends.nextSessionSeq]
    exact hreduced.fresh s hs
  refine ⟨⟨?_, ?_, ?_⟩, ?_⟩
  · intro s hs
    rw [hnext]
    rcases hrows s hs with rfl | hold
    · omega
    · have hlt := hless s hold
      omega
  · intro s hs t ht hseq
    rcases hrows s hs with rfl | hs
    · rcases hrows t ht with rfl | ht
      · rfl
      · have hlt := hless t ht
        omega
    · rcases hrows t ht with rfl | ht
      · have hlt := hless s hs
        omega
      · exact hreduced.distinct s hs t ht hseq
  · intro s hs path hspath
    rcases hrows s hs with rfl | hs
    · exact hpath path hspath
    · exact hreduced.paths s hs path hspath
  · intro s hs hseq
    rcases hrows s hs with rfl | hs
    · exact happ
    · have hlt := hless s hs
      omega

/-! ## Each step -/

/-- A creation adds a session of the application that it names, or none. -/
theorem createSession_paths (crates : Crates) (fuel : Nat) (order : SessionOrder)
    (gateway : ZoneGateway) (request : CreateRequest) (metadata : UploadMetadata)
    (chunkSize now millis : Nat) (key : SessionKey) :
    let created := gateway.createSession crates fuel order request metadata chunkSize now millis
      key
    Descends gateway created.1 ∨ Creates metadata.appId gateway created.1 := by
  unfold ZoneGateway.createSession
  cases (ZoneGateway.namedChunk crates metadata).filter fun chunkId =>
      (gateway.storeMgr.haveChunk crates fuel chunkId).getD false with
  | some chunkId =>
      refine Or.inr ⟨_, gateway, Descends.refl gateway, rfl, rfl, ?_, rfl, rfl⟩
      intro path hpath
      cases hpath
  | none =>
      dsimp only
      have hreduces : Reduces crates [] gateway
          (gateway.checkQuota order metadata.appId chunkSize).1 :=
        Reduces.checkQuota order gateway metadata.appId chunkSize
      have hquota := Descends.of_reduces hreduces
      unfold ZoneGateway.startUpload
      generalize gateway.checkQuota order metadata.appId chunkSize = checked at hquota ⊢
      obtain ⟨reduced, e | ⟨⟩⟩ := checked
      · exact Or.inl hquota
      · refine Or.inr ⟨_, reduced, hquota, hquota.nextSessionSeq, rfl, ?_,
          congrArg (· + 1) hquota.nextSessionSeq, rfl⟩
        intro path hpath
        simp only [ZoneGateway.newSession] at hpath
        split_ifs at hpath
        rw [← Option.some.inj hpath]
        rfl

theorem Creates.of_descends {between : ZoneGateway} (hdescends : Descends gateway between)
    (h : Creates appId between gateway') : Creates appId gateway gateway' := by
  obtain ⟨session, reduced, hreduced, hid, happ, hpath, hnext, hsessions⟩ := h
  rw [hdescends.nextSessionSeq] at hid hnext
  exact ⟨session, reduced, hdescends.trans hreduced, hid, happ, hpath, hnext, hsessions⟩

theorem handleCreateUpload_paths (crates : Crates) (fuel : Nat) (order : SessionOrder)
    (gateway : ZoneGateway) (request : CreateRequest) (now millis : Nat) :
    let created := gateway.handleCreateUpload crates fuel order request now millis
    Descends gateway created.1 ∨
      ∃ metadata, request.metadata = .ok metadata ∧ Creates metadata.appId gateway created.1 := by
  unfold ZoneGateway.handleCreateUpload
  split
  · exact Or.inl (Descends.refl gateway)
  · split_ifs
    · exact Or.inl (Descends.refl gateway)
    · split
      · exact Or.inl (Descends.refl gateway)
      · next metadata hmetadata =>
        split
        · exact Or.inl (Descends.refl gateway)
        · have hreduces : Reduces crates [] gateway (gateway.invalidateStaleSessions
              metadata.appId metadata.logicalPath (metadata.fileHash.getD "")) :=
            Reduces.dropListed gateway _
          have hstale := Descends.of_reduces hreduces
          have hlift : ∀ (between : ZoneGateway), Descends gateway between →
              ∀ chunkSize, Descends gateway (between.createSession crates fuel order request
                  metadata chunkSize now millis (ZoneGateway.requestKey metadata)).1 ∨
                Creates metadata.appId gateway (between.createSession crates fuel order request
                  metadata chunkSize now millis (ZoneGateway.requestKey metadata)).1 :=
            fun between hbetween chunkSize =>
              (createSession_paths crates fuel order between request metadata chunkSize now
                millis _).imp hbetween.trans (Creates.of_descends hbetween)
          unfold ZoneGateway.createLocked
          dsimp only
          split
          · split_ifs
            · -- The expired session goes away first.
              refine (hlift _ (hstale.trans (Descends.of_subset ?_ ?_)) _).imp id
                fun hcreates => ⟨metadata, hmetadata, hcreates⟩
              · rfl
              · intro s hs
                exact (Table.mem_deleteWhere.mp hs).1
            · exact Or.inl hstale
          · exact (hlift _ hstale _).imp id fun hcreates => ⟨metadata, hmetadata, hcreates⟩

/-- The last part of a `PATCH` changes one session. -/
theorem patchLocked_descends (crates : Crates) (gateway : ZoneGateway) (request : PatchRequest)
    (clientOffset now : Nat) :
    Descends gateway (gateway.patchLocked crates request clientOffset now).1 := by
  rw [← ZoneGateway.patchLockedWith_none]
  rcases ZoneGateway.patchLockedWith_cases crates .none gateway request clientOffset now with
    ⟨session, path, bytes, hfits⟩ | ⟨e, hnothing⟩
  · rw [ZoneGateway.patchLockedWith_fits hfits]
    have htaken : Descends gateway (gateway.takeBody session path request.body now) :=
      Descends.of_update session.sessionId (fun s => s.grown request.body.length now)
        (fun _ => rfl) (fun _ => rfl) (fun _ => rfl) (fun _ => rfl) rfl rfl
    by_cases hfull : session.offset + request.body.length = session.chunkSize
    · rw [ZoneGateway.writeBody_full rfl hfull, ZoneGateway.persistUploadWith_none]
      refine htaken.trans ?_
      unfold ZoneGateway.persistUpload
      split
      · exact Descends.refl _
      · next chunkId _ =>
        split
        · exact Descends.of_subset rfl fun _ hs => hs
        · exact Descends.of_update session.sessionId
            (fun s => ZoneGateway.completedSession s (chunkId.toObjId.toString crates))
            (fun _ => rfl) (fun _ => rfl) (fun _ => rfl) (fun _ => rfl) rfl rfl
    · rw [ZoneGateway.writeBody_grows rfl hfull]
      exact htaken.trans (Descends.of_subset rfl fun _ hs => hs)
  · rw [hnothing]
    exact Descends.refl gateway

theorem pathsInv_init (storeMgr : NamedDataMgr) (sessionTtl : Nat)
    (tempFiles : Table TempFile TempFile.path) :
    PathsInv (UploadSystem.init storeMgr sessionTtl tempFiles).gateway where
  fresh _ hs := absurd hs List.not_mem_nil
  distinct _ hs := absurd hs List.not_mem_nil
  paths _ hs := absurd hs List.not_mem_nil

/-- Every step keeps the numbers and the paths of the sessions. -/
theorem PathsInv.step {fuel : Nat} {system : UploadSystem} (h : PathsInv system.gateway)
    (action : UploadAction) : PathsInv (system.step crates fuel action).gateway := by
  cases action with
  | create request order now millis =>
      rcases handleCreateUpload_paths crates fuel order system.gateway request now millis with
        hdescends | ⟨metadata, -, hcreates⟩
      · exact h.descends hdescends
      · exact (h.creates hcreates).1
  | head sid sidText now => exact h
  | patch callId request =>
      show PathsInv (system.arrive callId request).gateway
      unfold UploadSystem.arrive
      split
      · exact h
      · split <;> exact h
  | turn callId now =>
      unfold UploadSystem.step
      dsimp only
      cases hcall : system.calls.find? callId with
      | none => exact h
      | some call =>
          dsimp only
          unfold UploadSystem.turn
          split
          · exact h
          · split <;> exact h
          · have hpatched := patchLocked_descends crates system.gateway call.request
              call.clientOffset now
            generalize system.gateway.patchLocked crates call.request call.clientOffset now =
              locked at hpatched ⊢
            obtain ⟨gateway, e | response⟩ := locked
            · exact h.descends hpatched
            · exact h.descends hpatched
  | expire now =>
      have hreduces : Reduces crates [] system.gateway (system.gateway.expireSessions now) :=
        Reduces.dropListed system.gateway _
      exact h.descends (Descends.of_reduces hreduces)

theorem pathsInv_run (fuel : Nat) (storeMgr : NamedDataMgr) (sessionTtl : Nat)
    (tempFiles : Table TempFile TempFile.path) (actions : List UploadAction) :
    PathsInv (run (UploadSystem.step crates fuel)
      (UploadSystem.init storeMgr sessionTtl tempFiles) actions).gateway := by
  let inv : UploadSystem → Prop := fun system => PathsInv system.gateway
  have hstep : ∀ (system : UploadSystem) (action : UploadAction), True → inv system →
      inv (system.step crates fuel action) := fun _ action _ h => h.step action
  exact run_invariant_of_forall hstep (fun _ _ => trivial)
    (pathsInv_init storeMgr sessionTtl tempFiles)

end Runs

/-- Two sessions of different applications have two files. -/
def FilesApart (cwd : List Name) (cacheDir : List Char) (gateway : ZoneGateway) : Prop :=
  ∀ s ∈ gateway.state.sessions.rows, ∀ t ∈ gateway.state.sessions.rows, s.appId ≠ t.appId →
    ∀ p q, s.tempFilePath = some p → t.tempFilePath = some q →
      p.location cwd cacheDir ≠ q.location cwd cacheDir

theorem PathsInv.filesApart {gateway : ZoneGateway} (h : PathsInv gateway) (cwd : List Name)
    (cacheDir : List Char) : FilesApart cwd cacheDir gateway := by
  intro s hs t ht happ p q hp hq
  apply TempFilePath.location_ne
  rw [h.paths s hs p hp, h.paths t ht q hq]
  intro hseq
  exact happ (congrArg UploadSession.appId (h.distinct s hs t ht hseq))

/-- After any run, the file of a session that is created is inside the cache directory, and
the files of different applications are apart, exactly when the application that the header
names stays below the cache directory. -/
theorem created_file_inside_iff (crates : Crates) (fuel : Nat)
    (decode : String → Option (List UInt8)) (storeMgr : NamedDataMgr) (sessionTtl : Nat)
    (tempFiles : Table TempFile TempFile.path) (actions : List UploadAction)
    (headers : HeaderMap) (order : SessionOrder) (now millis : Nat) (cwd : List Name)
    (cacheDir : List Char) :
    let gateway := (run (UploadSystem.step crates fuel)
      (UploadSystem.init storeMgr sessionTtl tempFiles) actions).gateway
    let created := (gateway.handleCreateUpload crates fuel order (createRequest decode headers)
      now millis).1
    ∀ session ∈ created.state.sessions.rows,
      session.sessionId.seq = gateway.state.nextSessionSeq →
        ∀ path, session.tempFilePath = some path →
          ∃ metadata, parseUploadMetadata decode headers = .ok metadata ∧
            (Below (resolve cwd cacheDir) (path.location cwd cacheDir) ∧
                FilesApart cwd cacheDir created ↔
              StaysBelow (resolve cwd cacheDir) metadata.appId.toList) := by
  intro gateway created session hsession hnew path hpath
  have hinv : PathsInv gateway := pathsInv_run fuel storeMgr sessionTtl tempFiles actions
  rcases handleCreateUpload_paths crates fuel order gateway (createRequest decode headers) now
    millis with hdescends | ⟨metadata, hmetadata, hcreates⟩
  · -- No session that was there before has the next number.
    have hlt : session.sessionId.seq < created.state.nextSessionSeq :=
      (hinv.descends hdescends).fresh session hsession
    have hnext : created.state.nextSessionSeq = gateway.state.nextSessionSeq :=
      hdescends.nextSessionSeq
    omega
  · obtain ⟨hcreated, happ⟩ := hinv.creates hcreates
    refine ⟨metadata, hmetadata, ?_⟩
    have happId : path.appId = metadata.appId := by
      rw [hcreated.paths session hsession path hpath]
      exact happ session hsession hnew
    rw [path.below_iff, happId]
    exact ⟨And.left, fun hstays => ⟨hstays, hcreated.filesApart cwd cacheDir⟩⟩

/-! ## Two headers -/

/-- A request for one byte of the file `f`, where the application calls itself so. -/
def headersOf (appId : String) : HeaderMap :=
  [("upload-length", utf8Bytes "1"),
    ("upload-metadata", utf8Bytes ("app_id=" ++ appId ++ ",logical_path=f"))]

/-- The gateway after this request. -/
def createdFor (appId : String) : ZoneGateway :=
  (startedUploads.gateway.handleCreateUpload sampleCrates 1 SessionOrder.insertion
    (createRequest (fun _ => none) (headersOf appId)) 0 0).1

/-- The application `shop/../album` has its file inside the cache directory. -/
theorem albumFile_inside :
    ∃ session ∈ (createdFor "shop/../album").state.sessions.rows, ∃ path,
      session.tempFilePath = some path ∧
        Below (resolve [] "/cache".toList) (path.location [] "/cache".toList) ∧
        FilesApart [] "/cache".toList (createdFor "shop/../album") := by
  have hsession : ∃ session ∈ (createdFor "shop/../album").state.sessions.rows,
      session.sessionId.seq = startedUploads.gateway.state.nextSessionSeq ∧
        session.tempFilePath = some ⟨"shop/../album", ⟨0, 1⟩, 0⟩ := by
    decide
  obtain ⟨session, hmem, hseq, hpath⟩ := hsession
  refine ⟨session, hmem, _, hpath, ?_⟩
  obtain ⟨metadata, hmetadata, hiff⟩ := created_file_inside_iff sampleCrates 1 (fun _ => none)
    oneStoreMgr 3600 Table.empty [] (headersOf "shop/../album") SessionOrder.insertion 0 0 []
    "/cache".toList session hmem hseq _ hpath
  have hparsed : parseUploadMetadata (fun _ => none) (headersOf "shop/../album") =
      .ok ⟨"shop/../album", "f", none, 0, none⟩ := by
    decide
  obtain rfl := Except.ok.inj (hparsed.symm.trans hmetadata)
  exact hiff.mpr (by decide)

/-- The application `../x` has its file outside. -/
theorem strayFile_outside :
    ∃ session ∈ (createdFor "../x").state.sessions.rows, ∃ path,
      session.tempFilePath = some path ∧
        ¬ Below (resolve [] "/cache".toList) (path.location [] "/cache".toList) := by
  have hsession : ∃ session ∈ (createdFor "../x").state.sessions.rows,
      session.tempFilePath = some ⟨"../x", ⟨0, 1⟩, 0⟩ := by
    decide
  obtain ⟨session, hmem, hpath⟩ := hsession
  refine ⟨session, hmem, _, hpath, ?_⟩
  rw [TempFilePath.below_iff]
  decide

end NamedStore
end CyfsNdn
