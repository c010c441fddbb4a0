import RlClient.Machine
import RlClient.Workflow

/-!
# Ids that are defined by their content

A bucket or a latency tracker is named on the wire by the first 16 bytes of a BLAKE2s
digest over its name and its settings. The digest itself is a parameter, `Evp`, with a
context of any type, every call of which may fail; what matters here is the string of
bytes that is handed to it, and that no two definitions share one.
-/

namespace RlClient

/-- The digest interface of the crypto library. `init` stands for finding the algorithm,
    allocating a context and initialising it. -/
structure Evp (κ : Type) where
  init : Option κ
  update : κ → Bytes → Option κ
  final : κ → Option Bytes

/-- One `EVP_DigestUpdate` after the other. -/
def Evp.updateAll (evp : Evp κ) : κ → List Bytes → Option κ
  | ctx, [] => some ctx
  | ctx, chunk :: chunks => (evp.update ctx chunk).bind fun ctx => evp.updateAll ctx chunks

/-- The updates of `r_hash_content_id_blake2s_128`; there is none for an empty name. -/
def contentIdChunks (domain name : Bytes) (fields : List UInt32) : List Bytes :=
  [domain, rWriteLe32 (UInt32.ofNat name.length)] ++ (if name.length > 0 then [name] else []) ++
    fields.map rWriteLe32

/-- `r_hash_content_id_blake2s_128` up to its last update. -/
def contentIdContext (evp : Evp κ) (domain name : Bytes) (fields : List UInt32) : Option κ :=
  if domain.length = 0 || name.length > 0xFFFFFFFF then none
  else evp.init.bind fun ctx => evp.updateAll ctx (contentIdChunks domain name fields)

/-- `r_hash_content_id_blake2s_128`. -/
def rHashContentIdBlake2s128 (evp : Evp κ) (domain name : Bytes) (fields : List UInt32) :
    Option (FixedBytes 16) :=
  (contentIdContext evp domain name fields).bind fun ctx =>
    (evp.final ctx).bind fun digest =>
      if digest.length < 16 then none else some (.ofSlice 16 digest 0)

/-- The arguments of the two helpers: `r_client_derive_bucket_id` and
    `r_client_derive_latency_tracker_id`. -/
inductive ContentIdCall where
  | bucket (bucketName : Bytes) (windowSizeMs rateLimit : UInt32)
  | latencyTracker (latencyTrackerName : Bytes) (ttlMs maxSamples minSampleThreshold : UInt32)
  deriving DecidableEq

namespace ContentIdCall

def name : ContentIdCall → Bytes
  | bucket name _ _ => name
  | latencyTracker name _ _ _ => name

/-- The domains, with the terminating NUL that `sizeof` counts. -/
def bucketDomain : Bytes := asciiBytes "ratelimitly.resource.v1" ++ [0]

def latencyTrackerDomain : Bytes := asciiBytes "ratelimitly.latency-tracker.v2" ++ [0]

def domain : ContentIdCall → Bytes
  | bucket _ _ _ => bucketDomain
  | latencyTracker _ _ _ _ => latencyTrackerDomain

def fields : ContentIdCall → List UInt32
  | bucket _ windowSizeMs rateLimit => [windowSizeMs, rateLimit]
  | latencyTracker _ ttlMs maxSamples minSampleThreshold =>
      [ttlMs, maxSamples, minSampleThreshold]

/-- The id, or `none` for `RCLIENT_ERR_CONFIG`. -/
def derive (evp : Evp κ) (call : ContentIdCall) : Option (FixedBytes 16) :=
  rHashContentIdBlake2s128 evp call.domain call.name call.fields

end ContentIdCall

/-- The helpers the workflow API calls. -/
def IdDerivation.ofEvp (evp : Evp κ) : IdDerivation where
  bucketId name windowSizeMs rateLimit :=
    (ContentIdCall.bucket name windowSizeMs rateLimit).derive evp
  latencyTrackerId name ttlMs maxSamples minSampleThreshold :=
    (ContentIdCall.latencyTracker name ttlMs maxSamples minSampleThreshold).derive evp

/-! ### What is hashed -/

/-- The same interface with a copy of everything it is handed. -/
def Evp.recorded (evp : Evp κ) : Evp (κ × Bytes) where
  init := evp.init.map (·, [])
  update ctx chunk := (evp.update ctx.1 chunk).map (·, ctx.2 ++ chunk)
  final ctx := evp.final ctx.1

/-- The bytes the digest has been handed when it is asked for its value. -/
def ContentIdCall.fed (evp : Evp κ) (call : ContentIdCall) : Option Bytes :=
  (contentIdContext evp.recorded call.domain call.name call.fields).map Prod.snd

/-- What the documentation says is hashed. -/
def ContentIdCall.preimage (call : ContentIdCall) : Bytes :=
  call.domain ++ rWriteLe32 (UInt32.ofNat call.name.length) ++ call.name ++
    (call.fields.map rWriteLe32).flatten

theorem updateAll_recorded (evp : Evp κ) (ctx : κ) (sofar : Bytes) (chunks : List Bytes) :
    evp.recorded.updateAll (ctx, sofar) chunks =
      (evp.updateAll ctx chunks).map (·, sofar ++ chunks.flatten) := by
  induction chunks generalizing ctx sofar with
  | nil =>
    rw [List.flatten_nil, List.append_nil]
    rfl
  | cons chunk chunks ih =>
    rw [Evp.updateAll, Evp.updateAll, List.flatten_cons, ← List.append_assoc]
    change ((evp.update ctx chunk).map _).bind _ = _
    cases evp.update ctx chunk with
    | none => rfl
    | some ctx => exact ih ctx (sofar ++ chunk)

theorem flatten_contentIdChunks (call : ContentIdCall) :
    (contentIdChunks call.domain call.name call.fields).flatten = call.preimage := by
  rw [contentIdChunks, ContentIdCall.preimage, List.flatten_append, List.flatten_append]
  split
  · simp
  · rename_i hempty
    have hname : call.name = [] := List.eq_nil_of_length_eq_zero (Nat.eq_zero_of_not_pos hempty)
    simp [hname]

/-- The copy is made along the same path as the digest. -/
theorem ContentIdCall.fed_eq (evp : Evp κ) (call : ContentIdCall) :
    call.fed evp = (contentIdContext evp call.domain call.name call.fields).map
      fun _ => call.preimage := by
  unfold ContentIdCall.fed contentIdContext
  split
  · rfl
  · change (((evp.init.map _).bind _).map _) = _
    cases evp.init with
    | none => rfl
    | some ctx =>
      simp only [Option.map_some, Option.bind_some, updateAll_recorded, flatten_contentIdChunks,
        List.nil_append, Option.map_map]
      rfl

theorem contentIdContext_of_long (evp : Evp κ) (domain : Bytes) {name : Bytes}
    (fields : List UInt32) (h : 2 ^ 32 ≤ name.length) :
    contentIdContext evp domain name fields = none := by
  have hlong : (decide (domain.length = 0) || decide (name.length > 0xFFFFFFFF)) = true := by
    rw [Bool.or_eq_true]
    exact Or.inr (decide_eq_true (show 0xFFFFFFFF < name.length by omega))
  rw [contentIdContext, if_pos hlong]

theorem ContentIdCall.name_lt_of_fed {evp : Evp κ} {call : ContentIdCall} {bytes : Bytes}
    (h : call.fed evp = some bytes) : call.name.length < 2 ^ 32 ∧ bytes = call.preimage := by
  rw [fed_eq] at h
  obtain ⟨ctx, hctx, rfl⟩ := Option.map_eq_some_iff.mp h
  refine ⟨?_, rfl⟩
  by_contra hlong
  rw [contentIdContext_of_long evp _ _ (Nat.not_lt.mp hlong)] at hctx
  cases hctx

/-! ### The preimage determines the definition -/

theorem rWriteLe32_inj {v w : UInt32} (h : rWriteLe32 v = rWriteLe32 w) : v = w := by
  have hread := congrArg (fun bytes => rLe32 (bytes ++ []) 0) h
  simpa only [rLe32_write] using hread

/-- Settings of one width are read back one after the other. -/
theorem flatten_rWriteLe32_inj {vs ws : List UInt32}
    (h : (vs.map rWriteLe32).flatten = (ws.map rWriteLe32).flatten) : vs = ws := by
  induction vs generalizing ws with
  | nil =>
    cases ws with
    | nil => rfl
    | cons w ws =>
      have hlength := congrArg List.length h
      simp only [List.map_nil, List.flatten_nil, List.length_nil, List.map_cons, List.flatten_cons,
        List.length_append, length_rWriteLe32] at hlength
      omega
  | cons v vs ih =>
    cases ws with
    | nil =>
      have hlength := congrArg List.length h
      simp at hlength
    | cons w ws =>
      simp only [List.map_cons, List.flatten_cons] at h
      obtain ⟨hhead, htail⟩ := List.append_inj h
        ((length_rWriteLe32 v).trans (length_rWriteLe32 w).symm)
      rw [rWriteLe32_inj hhead, ih htail]

/-- Behind one domain, the length tells where the name ends. -/
theorem named_fields_inj {name name' : Bytes} {fields fields' : List UInt32}
    (hname : name.length < 2 ^ 32) (hname' : name'.length < 2 ^ 32)
    (h : rWriteLe32 (UInt32.ofNat name.length) ++ (name ++ (fields.map rWriteLe32).flatten) =
      rWriteLe32 (UInt32.ofNat name'.length) ++ (name' ++ (fields'.map rWriteLe32).flatten)) :
    name = name' ∧ fields = fields' := by
  obtain ⟨hlength, hrest⟩ := List.append_inj h
    ((length_rWriteLe32 _).trans (length_rWriteLe32 _).symm)
  have hsame : name.length = name'.length := by
    have hword := congrArg UInt32.toNat (rWriteLe32_inj hlength)
    rwa [UInt32.toNat_ofNat_of_lt' hname, UInt32.toNat_ofNat_of_lt' hname'] at hword
  obtain ⟨hbytes, hfields⟩ := List.append_inj hrest hsame
  exact ⟨hbytes, flatten_rWriteLe32_inj hfields⟩

theorem ContentIdCall.lt_length_domain (call : ContentIdCall) : 12 < call.domain.length := by
  cases call with
  | bucket => exact show 12 < bucketDomain.length by decide
  | latencyTracker => exact show 12 < latencyTrackerDomain.length by decide

theorem ContentIdCall.preimage_domain (call : ContentIdCall) :
    call.preimage[12]? = call.domain[12]? := by
  rw [preimage, List.append_assoc, List.append_assoc,
    List.getElem?_append_left call.lt_length_domain]

theorem ContentIdCall.preimage_inj {call call' : ContentIdCall} (hname : call.name.length < 2 ^ 32)
    (hname' : call'.name.length < 2 ^ 32) (h : call.preimage = call'.preimage) : call = call' := by
  have hdomain : call.domain[12]? = call'.domain[12]? := by
    rw [← preimage_domain, ← preimage_domain, h]
  simp only [preimage, List.append_assoc] at h
  cases call with
  | bucket name windowSizeMs rateLimit =>
    cases call' with
    | bucket name' windowSizeMs' rateLimit' =>
      obtain ⟨hsame, hfields⟩ := named_fields_inj hname hname' (List.append_cancel_left h)
      simp only [fields, List.cons.injEq, and_true] at hfields
      exact congr (congr (congrArg bucket hsame) hfields.1) hfields.2
    | latencyTracker =>
      exact absurd hdomain (show bucketDomain[12]? ≠ latencyTrackerDomain[12]? by decide)
  | latencyTracker name ttlMs maxSamples minSampleThreshold =>
    cases call' with
    | bucket => exact absurd hdomain (show latencyTrackerDomain[12]? ≠ bucketDomain[12]? by decide)
    | latencyTracker name' ttlMs' maxSamples' minSampleThreshold' =>
      obtain ⟨hsame, hfields⟩ := named_fields_inj hname hname' (List.append_cancel_left h)
      simp only [fields, List.cons.injEq, and_true] at hfields
      exact congr (congr (congr (congrArg latencyTracker hsame) hfields.1) hfields.2.1) hfields.2.2

/-! ### Equal ids -/

/-- The interface computes `hash`: whatever is handed to it in pieces, the value is that of
    the whole. -/
def Evp.Computes (evp : Evp κ) (hash : Bytes → Bytes) : Prop :=
  ∀ ctx ctx' chunks digest, evp.init = some ctx → evp.updateAll ctx chunks = some ctx' →
    evp.final ctx' = some digest → digest = hash chunks.flatten

/-- An id is the beginning of the digest of what was hashed. -/
theorem ContentIdCall.derive_eq_some {evp : Evp κ} {hash : Bytes → Bytes}
    (hcomputes : evp.Computes hash) {call : ContentIdCall} {id : FixedBytes 16}
    (h : call.derive evp = some id) :
    call.fed evp = some call.preimage ∧ id = .ofSlice 16 (hash call.preimage) 0 := by
  obtain ⟨ctx', hctx', hfinal⟩ := Option.bind_eq_some_iff.mp h
  obtain ⟨digest, hdigest, hid⟩ := Option.bind_eq_some_iff.mp hfinal
  refine ⟨by rw [fed_eq, hctx', Option.map_some], ?_⟩
  rw [contentIdContext] at hctx'
  split at hctx'
  · cases hctx'
  obtain ⟨ctx, hctx, hupdates⟩ := Option.bind_eq_some_iff.mp hctx'
  have hvalue := hcomputes ctx ctx' _ digest hctx hupdates hdigest
  rw [flatten_contentIdChunks] at hvalue
  split at hid
  · cases hid
  · rw [← hvalue]
    exact (Option.some.inj hid).symm

/-- A shorter name is hashed when the calls of the interface succeed. -/
theorem ContentIdCall.derive_of_short {evp : Evp κ} {call : ContentIdCall} {ctx ctx' : κ}
    {digest : Bytes} (hname : call.name.length < 2 ^ 32) (hinit : evp.init = some ctx)
    (hupdates : evp.updateAll ctx (contentIdChunks call.domain call.name call.fields) = some ctx')
    (hfinal : evp.final ctx' = some digest) (hlong : 16 ≤ digest.length) :
    call.fed evp = some call.preimage ∧ call.derive evp = some (.ofSlice 16 digest 0) := by
  have hdomain : call.domain.length ≠ 0 := (Nat.zero_lt_of_lt call.lt_length_domain).ne'
  have hctx : contentIdContext evp call.domain call.name call.fields = some ctx' := by
    have hshort : ¬ call.name.length > 0xFFFFFFFF := by omega
    simp only [contentIdContext, hdomain, hshort, decide_false, Bool.or_self, Bool.false_eq_true,
      if_false, hinit, Option.bind_some, hupdates]
  refine ⟨by rw [fed_eq, hctx, Option.map_some], ?_⟩
  simp only [derive, rHashContentIdBlake2s128, hctx, Option.bind_some, hfinal,
    if_neg (Nat.not_lt.mpr hlong)]

/-- **Content-defined ids.** For the two helpers, over every digest interface and hash it
    computes: what is hashed is the documented string; two calls that hash the same string
    have the same helper, name and settings; a name of `2 ^ 32` bytes or more is rejected and
    nothing is hashed; a shorter one is hashed when the calls of the interface succeed, and its
    id is the first 16 bytes of the digest; and equal ids come from equal definitions or from
    two different strings whose digests begin alike. -/
theorem content_ids_unambiguous (evp : Evp κ) (hash : Bytes → Bytes)
    (hcomputes : evp.Computes hash) :
    (∀ call bytes, ContentIdCall.fed evp call = some bytes → bytes = call.preimage) ∧
    (∀ call call' bytes, ContentIdCall.fed evp call = some bytes →
      ContentIdCall.fed evp call' = some bytes → call = call') ∧
    (∀ call : ContentIdCall, 2 ^ 32 ≤ call.name.length →
      call.derive evp = none ∧ call.fed evp = none) ∧
    (∀ (call : ContentIdCall) ctx ctx' digest, call.name.length < 2 ^ 32 → evp.init = some ctx →
      evp.updateAll ctx (contentIdChunks call.domain call.name call.fields) = some ctx' →
      evp.final ctx' = some digest → 16 ≤ digest.length →
      call.fed evp = some call.preimage ∧
        call.derive evp = some (.ofSlice 16 (hash call.preimage) 0)) ∧
    ∀ call call' id, ContentIdCall.derive evp call = some id →
      ContentIdCall.derive evp call' = some id →
      call = call' ∨ ∃ bytes bytes', call.fed evp = some bytes ∧ call'.fed evp = some bytes' ∧
        bytes ≠ bytes' ∧
        FixedBytes.ofSlice 16 (hash bytes) 0 = FixedBytes.ofSlice 16 (hash bytes') 0 := by
  have hinjective : ∀ call call' bytes, ContentIdCall.fed evp call = some bytes →
      ContentIdCall.fed evp call' = some bytes → call = call' := by
    intro call call' bytes hfed hfed'
    obtain ⟨hname, hbytes⟩ := ContentIdCall.name_lt_of_fed hfed
    obtain ⟨hname', hbytes'⟩ := ContentIdCall.name_lt_of_fed hfed'
    exact ContentIdCall.preimage_inj hname hname' (hbytes.symm.trans hbytes')
  refine ⟨?_, hinjective, ?_, ?_, ?_⟩
  · intro call bytes hfed
    exact (ContentIdCall.name_lt_of_fed hfed).2
  · intro call hlong
    have hnone := contentIdContext_of_long evp call.domain call.fields hlong
    refine ⟨?_, ?_⟩
    · rw [ContentIdCall.derive, rHashContentIdBlake2s128, hnone]
      rfl
    · rw [ContentIdCall.fed_eq, hnone]
      rfl
  · intro call ctx ctx' digest hname hinit hupdates hfinal hlong
    have hvalue := hcomputes ctx ctx' _ digest hinit hupdates hfinal
    rw [flatten_contentIdChunks] at hvalue
    rw [← hvalue]
    exact ContentIdCall.derive_of_short hname hinit hupdates hfinal hlong
  · intro call call' id hid hid'
    obtain ⟨hfed, hdigest⟩ := ContentIdCall.derive_eq_some hcomputes hid
    obtain ⟨hfed', hdigest'⟩ := ContentIdCall.derive_eq_some hcomputes hid'
    by_cases hsame : call.preimage = call'.preimage
    · left
      rw [hsame] at hfed
      exact hinjective call call' _ hfed hfed'
    · right
      exact ⟨_, _, hfed, hfed', hsame, hdigest.symm.trans hdigest'⟩

def Evp.ofHash (hash : Bytes → Bytes) : Evp Bytes where
  init := some []
  update sofar chunk := some (sofar ++ chunk)
  final sofar := some (hash sofar)

theorem updateAll_ofHash (hash : Bytes → Bytes) (sofar : Bytes) (chunks : List Bytes) :
    (Evp.ofHash hash).updateAll sofar chunks = some (sofar ++ chunks.flatten) := by
  induction chunks generalizing sofar with
  | nil => exact congrArg some (List.append_nil sofar).symm
  | cons chunk chunks ih =>
    rw [Evp.updateAll, List.flatten_cons, ← List.append_assoc]
    exact ih (sofar ++ chunk)

theorem computes_ofHash (hash : Bytes → Bytes) : (Evp.ofHash hash).Computes hash := by
  intro ctx ctx' chunks digest hinit hupdates hfinal
  obtain rfl := Option.some.inj hinit
  rw [updateAll_ofHash, List.nil_append] at hupdates
  obtain rfl := Option.some.inj hupdates
  exact (Option.some.inj hfinal).symm

/-- A digest of 32 bytes that mixes all it is handed. -/
def sampleDigest (bytes : Bytes) : Bytes :=
  (List.range 32).map fun i => bytes.foldl (fun acc b => acc * 31 + (b ^^^ UInt8.ofNat i)) 7

/-- The end of a name cannot be taken for a setting: both calls are hashed, and not alike. -/
theorem content_ids_unambiguous_shifted :
    let evp := Evp.ofHash sampleDigest
    let call := ContentIdCall.bucket [97, 1, 0, 0, 0] 2 3
    call.derive evp = some (.ofSlice 16 (sampleDigest call.preimage) 0) ∧
      call.fed evp ≠ (ContentIdCall.bucket [97] 1 2).fed evp := by
  intro evp call
  obtain ⟨-, hinjective, -, hhashed, -⟩ :=
    content_ids_unambiguous evp sampleDigest (computes_ofHash sampleDigest)
  obtain ⟨hfed, hid⟩ := hhashed call [] call.preimage (sampleDigest call.preimage) (by decide) rfl
    (by rw [updateAll_ofHash, flatten_contentIdChunks]; rfl) rfl (by simp [sampleDigest])
  refine ⟨hid, fun hsame => ?_⟩
  have hcall := hinjective call (.bucket [97] 1 2) _ hfed (hsame ▸ hfed)
  exact absurd hcall (by decide)

end RlClient
