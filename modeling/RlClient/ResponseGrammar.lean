import RlClient.Packet
import RlClient.Recorded

/-!
# The grammar of responses

`r_parse_rate_response_alloc` reads the counts and the declared size, allocates,
and hands the buffer to `r_parse_rate_response_pdu`, which reads them again and
checks the size block by block. Here the two are shown to accept one grammar and
to return its fields. A second form of the parser writes down every byte it reads
and every array slot it fills; it computes the same result, and the log stays
inside the buffer, the declared size and the arrays on every input.
-/

namespace RlClient

/-! ### The fields of the grammar -/

def guardResultAt (pdu : Bytes) (i : Nat) : RGuardResult where
  latencyTrackerId := FixedBytes.ofSlice 16 pdu (12 + 36 * i)
  thresholdMs := rLe32 pdu (12 + 36 * i + 28)
  currentLatencyMs := rLe32 pdu (12 + 36 * i + 32)
  passed := decide (rLe32 pdu (12 + 36 * i + 32) < rLe32 pdu (12 + 36 * i + 28))

def resourceResultAt (pdu : Bytes) (g i : Nat) : RResourceResult where
  bucketId := FixedBytes.ofSlice 16 pdu (12 + 36 * g + 28 * i)
  tokensDeficit := rLe16 pdu (12 + 36 * g + 28 * i + 24)
  actualRate := rLe32 pdu (12 + 36 * g + 28 * i + 20)

/-- A response PDU in a buffer: the declared size holds the header, the counts and
    all the blocks, and lies inside the buffer. -/
def ResponseGrammar (pdu : Bytes) : Prop :=
  8 ≤ pdu.length ∧ rLe16 pdu 0 = 0x5252 ∧ 12 ≤ (rLe16 pdu 2).toNat ∧
    (rLe16 pdu 2).toNat ≤ pdu.length ∧
    12 + 36 * (rLe16 pdu 8).toNat + 28 * (rLe16 pdu 10).toNat ≤ (rLe16 pdu 2).toNat

instance (pdu : Bytes) : Decidable (ResponseGrammar pdu) := by
  unfold ResponseGrammar
  infer_instance

def responseAt (pdu : Bytes) : RRateResponse where
  guards := (List.range (rLe16 pdu 8).toNat).map (guardResultAt pdu)
  resources := (List.range (rLe16 pdu 10).toNat).map (resourceResultAt pdu (rLe16 pdu 8).toNat)
  success := decide ((∀ i < (rLe16 pdu 8).toNat, (guardResultAt pdu i).passed = true) ∧
    ∀ i < (rLe16 pdu 10).toNat, (resourceResultAt pdu (rLe16 pdu 8).toNat i).tokensDeficit = 0)

/-! ### The loops -/

theorem parseGuardBlocks_fit (body : Bytes) (bodyLen count pos : Nat) (success : Bool)
    (hfit : pos + 36 * count ≤ bodyLen) :
    parseGuardBlocks body bodyLen count pos success =
      .ok ((List.range count).map fun i => readGuardResult body (pos + 36 * i), pos + 36 * count,
        success &&
          (List.range count).all fun i => (readGuardResult body (pos + 36 * i)).passed) := by
  induction count generalizing pos success with
  | zero => simp [parseGuardBlocks]
  | succ count ih =>
    have hblock : ¬ bodyLen < pos + R_GUARD_BLOCK_WIRE_LEN := by
      simp only [R_GUARD_BLOCK_WIRE_LEN]
      omega
    have hnext : ∀ i, pos + 36 * (i + 1) = pos + R_GUARD_BLOCK_WIRE_LEN + 36 * i := by
      intro i
      simp only [R_GUARD_BLOCK_WIRE_LEN]
      omega
    rw [parseGuardBlocks, if_neg hblock]
    simp only
    rw [ih (pos + R_GUARD_BLOCK_WIRE_LEN) _ (by rw [← hnext]; exact hfit)]
    simp only [List.range_succ_eq_map, List.map_cons, List.map_map, List.all_cons, List.all_map,
      Function.comp_def, Nat.succ_eq_add_one, hnext, Nat.mul_zero, Nat.add_zero]
    cases (readGuardResult body pos).passed <;> simp

theorem parseGuardBlocks_short (body : Bytes) (bodyLen count pos : Nat) (success : Bool)
    (hpos : pos ≤ bodyLen) (hshort : bodyLen < pos + 36 * count) :
    parseGuardBlocks body bodyLen count pos success = .error .errProtocol := by
  induction count generalizing pos success with
  | zero => omega
  | succ count ih =>
    have hlen : R_GUARD_BLOCK_WIRE_LEN = 36 := rfl
    rw [parseGuardBlocks]
    split
    · rfl
    · rename_i hblock
      simp only [ih (pos + R_GUARD_BLOCK_WIRE_LEN) _ (by omega) (by omega)]

theorem parseResourceBlocks_fit (body : Bytes) (bodyLen count pos : Nat) (success : Bool)
    (hfit : pos + 28 * count ≤ bodyLen) :
    parseResourceBlocks body bodyLen count pos success =
      .ok ((List.range count).map fun i => readResourceResult body (pos + 28 * i),
        success && (List.range count).all fun i =>
          (readResourceResult body (pos + 28 * i)).tokensDeficit == 0) := by
  induction count generalizing pos success with
  | zero => simp [parseResourceBlocks]
  | succ count ih =>
    have hblock : ¬ bodyLen < pos + R_RESOURCE_BLOCK_WIRE_LEN := by
      simp only [R_RESOURCE_BLOCK_WIRE_LEN]
      omega
    have hnext : ∀ i, pos + 28 * (i + 1) = pos + R_RESOURCE_BLOCK_WIRE_LEN + 28 * i := by
      intro i
      simp only [R_RESOURCE_BLOCK_WIRE_LEN]
      omega
    rw [parseResourceBlocks, if_neg hblock]
    simp only
    rw [ih (pos + R_RESOURCE_BLOCK_WIRE_LEN) _ (by rw [← hnext]; exact hfit)]
    simp only [List.range_succ_eq_map, List.map_cons, List.map_map, List.all_cons, List.all_map,
      Function.comp_def, Nat.succ_eq_add_one, hnext, Nat.mul_zero, Nat.add_zero]
    by_cases hdeficit : (readResourceResult body pos).tokensDeficit = 0
    · simp [hdeficit]
    · simp [hdeficit]

theorem parseResourceBlocks_short (body : Bytes) (bodyLen count pos : Nat) (success : Bool)
    (hpos : pos ≤ bodyLen) (hshort : bodyLen < pos + 28 * count) :
    parseResourceBlocks body bodyLen count pos success = .error .errProtocol := by
  induction count generalizing pos success with
  | zero => omega
  | succ count ih =>
    have hlen : R_RESOURCE_BLOCK_WIRE_LEN = 28 := rfl
    rw [parseResourceBlocks]
    split
    · rfl
    · rename_i hblock
      simp only [ih (pos + R_RESOURCE_BLOCK_WIRE_LEN) _ (by omega) (by omega)]

/-! ### The two functions -/

theorem readGuardResult_body (pdu : Bytes) (i : Nat) :
    readGuardResult (pdu.drop R_PDU_HEADER_LEN) (4 + 36 * i) = guardResultAt pdu i := by
  have hoff : ∀ k, R_PDU_HEADER_LEN + (4 + 36 * i + k) = 12 + 36 * i + k := by
    intro k
    simp only [R_PDU_HEADER_LEN]
    omega
  have hzero := hoff 0
  simp only [Nat.add_zero] at hzero
  simp only [readGuardResult, guardResultAt, rLe32_drop, FixedBytes.ofSlice_drop, hoff, hzero]

theorem readResourceResult_body (pdu : Bytes) (g i : Nat) :
    readResourceResult (pdu.drop R_PDU_HEADER_LEN) (4 + 36 * g + 28 * i) =
      resourceResultAt pdu g i := by
  have hoff : ∀ k, R_PDU_HEADER_LEN + (4 + 36 * g + 28 * i + k) = 12 + 36 * g + 28 * i + k := by
    intro k
    simp only [R_PDU_HEADER_LEN]
    omega
  have hzero := hoff 0
  simp only [Nat.add_zero] at hzero
  simp only [readResourceResult, resourceResultAt, rLe32_drop, rLe16_drop, FixedBytes.ofSlice_drop,
    hoff, hzero]

theorem responseAt_eq (pdu : Bytes) :
    responseAt pdu =
      { guards := (List.range (rLe16 pdu 8).toNat).map (guardResultAt pdu)
        resources := (List.range (rLe16 pdu 10).toNat).map
          (resourceResultAt pdu (rLe16 pdu 8).toNat)
        success := (true && (List.range (rLe16 pdu 8).toNat).all fun i =>
            (guardResultAt pdu i).passed) &&
          (List.range (rLe16 pdu 10).toNat).all fun i =>
            (resourceResultAt pdu (rLe16 pdu 8).toNat i).tokensDeficit == 0 } := by
  unfold responseAt
  rw [RRateResponse.mk.injEq]
  refine ⟨rfl, rfl, ?_⟩
  rw [Bool.eq_iff_iff]
  simp

/-- `r_parse_rate_response_pdu` on a buffer of any length and with arrays of any size. -/
theorem rParseRateResponsePdu_exact (pdu : Bytes) (pduLen guardCap resCap : Nat) :
    rParseRateResponsePdu pdu pduLen guardCap resCap =
      if rLe16 pdu 0 = R_PDU_RATE_RESPONSE ∧ 12 ≤ (rLe16 pdu 2).toNat ∧
          (rLe16 pdu 2).toNat ≤ pduLen ∧ (rLe16 pdu 8).toNat ≤ guardCap ∧
          (rLe16 pdu 10).toNat ≤ resCap ∧
          12 + 36 * (rLe16 pdu 8).toNat + 28 * (rLe16 pdu 10).toNat ≤ (rLe16 pdu 2).toNat then
        .ok (responseAt pdu)
      else .error .errProtocol := by
  have hheader : R_PDU_HEADER_LEN = 8 := rfl
  have hcounts : rLe16 (pdu.drop R_PDU_HEADER_LEN) 0 = rLe16 pdu 8 ∧
      rLe16 (pdu.drop R_PDU_HEADER_LEN) 2 = rLe16 pdu 10 :=
    ⟨rLe16_drop pdu 8 0, rLe16_drop pdu 8 2⟩
  unfold rParseRateResponsePdu
  simp only [hcounts]
  by_cases hlen : pduLen < R_PDU_HEADER_LEN
  · rw [if_pos hlen, if_neg (by omega)]
  rw [if_neg hlen]
  by_cases htype : rLe16 pdu 0 = R_PDU_RATE_RESPONSE
  swap
  · rw [if_pos htype, if_neg fun h => htype h.1]
  rw [if_neg (not_not.mpr htype)]
  by_cases hsize : (rLe16 pdu 2).toNat < R_PDU_HEADER_LEN ∨ pduLen < (rLe16 pdu 2).toNat
  · rw [if_pos (by simpa using hsize), if_neg (by omega)]
  rw [if_neg (by simpa using hsize)]
  by_cases hbody : (rLe16 pdu 2).toNat - R_PDU_HEADER_LEN < 4
  · rw [if_pos hbody, if_neg (by omega)]
  rw [if_neg hbody]
  by_cases hcap : (rLe16 pdu 8).toNat > guardCap ∨ (rLe16 pdu 10).toNat > resCap
  · rw [if_pos (by simpa using hcap), if_neg (by omega)]
  rw [if_neg (by simpa using hcap)]
  by_cases hguards : 4 + 36 * (rLe16 pdu 8).toNat ≤ (rLe16 pdu 2).toNat - R_PDU_HEADER_LEN
  · rw [parseGuardBlocks_fit _ _ _ _ _ hguards]
    simp only
    by_cases hresources : 4 + 36 * (rLe16 pdu 8).toNat + 28 * (rLe16 pdu 10).toNat ≤
        (rLe16 pdu 2).toNat - R_PDU_HEADER_LEN
    · rw [parseResourceBlocks_fit _ _ _ _ _ hresources, responseAt_eq,
        if_pos ⟨htype, by omega, by omega, by omega, by omega, by omega⟩]
      simp only [readGuardResult_body, readResourceResult_body]
    · rw [parseResourceBlocks_short _ _ _ _ _ hguards (by omega), if_neg (by omega)]
  · rw [parseGuardBlocks_short _ _ _ _ _ (by omega) (by omega), if_neg (by omega)]

/-- **The parser accepts its grammar**, unless it runs out of memory, and returns the
    fields of the PDU. -/
theorem rParseRateResponseAlloc_cases (pdu : Bytes) (alloc : ResponseAlloc) :
    (ResponseGrammar pdu ∧ rParseRateResponseAlloc pdu alloc = .ok (responseAt pdu)) ∨
      (¬ ResponseGrammar pdu ∧ rParseRateResponseAlloc pdu alloc = .error .errProtocol) ∨
      (¬ (alloc.guards = true ∧ alloc.resources = true) ∧
        rParseRateResponseAlloc pdu alloc = .error .errNomem) := by
  have hheader : R_PDU_HEADER_LEN = 8 := rfl
  have hcounts : rLe16 (pdu.drop R_PDU_HEADER_LEN) 0 = rLe16 pdu 8 ∧
      rLe16 (pdu.drop R_PDU_HEADER_LEN) 2 = rLe16 pdu 10 :=
    ⟨rLe16_drop pdu 8 0, rLe16_drop pdu 8 2⟩
  unfold rParseRateResponseAlloc ResponseGrammar
  simp only [hcounts, rParseRateResponsePdu_exact]
  by_cases hlength : pdu.length < R_PDU_HEADER_LEN
  · rw [if_pos hlength]
    exact .inr (.inl ⟨by omega, rfl⟩)
  rw [if_neg hlength]
  by_cases htype : rLe16 pdu 0 = R_PDU_RATE_RESPONSE
  swap
  · rw [if_pos htype]
    exact .inr (.inl ⟨fun h => htype h.2.1, rfl⟩)
  rw [if_neg (not_not.mpr htype)]
  by_cases hsize : (rLe16 pdu 2).toNat < R_PDU_HEADER_LEN ∨ pdu.length < (rLe16 pdu 2).toNat
  · rw [if_pos (by simpa using hsize)]
    exact .inr (.inl ⟨by omega, rfl⟩)
  rw [if_neg (by simpa using hsize)]
  by_cases hbody : (rLe16 pdu 2).toNat - R_PDU_HEADER_LEN < 4
  · rw [if_pos hbody]
    exact .inr (.inl ⟨by omega, rfl⟩)
  rw [if_neg hbody]
  split
  · rename_i hguards
    exact .inr (.inr ⟨fun h => by simp [h.1] at hguards, rfl⟩)
  split
  · rename_i hresources
    exact .inr (.inr ⟨fun h => by simp [h.2] at hresources, rfl⟩)
  by_cases hfit : 12 + 36 * (rLe16 pdu 8).toNat + 28 * (rLe16 pdu 10).toNat ≤ (rLe16 pdu 2).toNat
  · rw [if_pos ⟨htype, by omega, le_refl _, le_refl _, le_refl _, hfit⟩]
    exact .inl ⟨⟨by omega, htype, by omega, by omega, hfit⟩, rfl⟩
  · rw [if_neg fun h => hfit h.2.2.2.2.2]
    exact .inr (.inl ⟨fun h => hfit h.2.2.2.2, rfl⟩)

theorem rParseRateResponseAlloc_ok {pdu : Bytes} {alloc : ResponseAlloc} {parsed : RRateResponse}
    (h : rParseRateResponseAlloc pdu alloc = .ok parsed) :
    ResponseGrammar pdu ∧ parsed = responseAt pdu := by
  rcases rParseRateResponseAlloc_cases pdu alloc with ⟨hgrammar, hok⟩ | ⟨-, herror⟩ | ⟨-, herror⟩
  · exact ⟨hgrammar, Except.ok.inj (h.symm.trans hok)⟩
  · cases h.symm.trans herror
  · cases h.symm.trans herror

theorem rParseRateResponseAlloc_exact (pdu : Bytes) {alloc : ResponseAlloc}
    (hguards : alloc.guards = true) (hresources : alloc.resources = true) :
    (ResponseGrammar pdu ∧ rParseRateResponseAlloc pdu alloc = .ok (responseAt pdu)) ∨
      (¬ ResponseGrammar pdu ∧ rParseRateResponseAlloc pdu alloc = .error .errProtocol) := by
  rcases rParseRateResponseAlloc_cases pdu alloc with hok | herror | ⟨hmemory, -⟩
  · exact .inl hok
  · exact .inr herror
  · exact absurd ⟨hguards, hresources⟩ hmemory

/-! ### The parser with its accesses -/

/-- What the parser touches: a byte of the PDU, or an entry of a result array that
    was allocated with `allocated` entries. `capacityExceeded` marks the branch of
    `r_parse_rate_response_pdu` that finds its arrays too small. -/
inductive Access where
  | byte (offset : Nat)
  | guardSlot (allocated index : Nat)
  | resourceSlot (allocated index : Nat)
  | capacityExceeded
deriving DecidableEq

abbrev Traced := Logged Access RClientError

namespace Traced

def load (pdu : Bytes) (offset : Nat) : Traced UInt8 := do
  Logged.note (.byte offset)
  return pdu.getD offset 0

/-- Reads `n` bytes, one after the other. -/
def loadBytes (pdu : Bytes) : (n offset : Nat) → Traced Bytes
  | 0, _ => return []
  | n + 1, offset => do
      let byte ← load pdu offset
      let rest ← loadBytes pdu n (offset + 1)
      return byte :: rest

def loadLe16 (pdu : Bytes) (offset : Nat) : Traced UInt16 := do
  let bytes ← loadBytes pdu 2 offset
  return UInt16.ofNat (leNat bytes)

def loadLe32 (pdu : Bytes) (offset : Nat) : Traced UInt32 := do
  let bytes ← loadBytes pdu 4 offset
  return UInt32.ofNat (leNat bytes)

def loadId (pdu : Bytes) (offset : Nat) : Traced (FixedBytes 16) := do
  let bytes ← loadBytes pdu 16 offset
  return FixedBytes.ofSlice 16 bytes 0

/-- The guard loop from block `i` on; `allocated` is the length of the array. -/
def parseGuardBlocks (pdu : Bytes) (bodyLen allocated : Nat) :
    (count i pos : Nat) → (success : Bool) → Traced (List RGuardResult × Nat × Bool)
  | 0, _, pos, success => return ([], pos, success)
  | count + 1, i, pos, success =>
      if bodyLen < pos + R_GUARD_BLOCK_WIRE_LEN then Logged.fail .errProtocol
      else do
        let p := R_PDU_HEADER_LEN + pos
        let latencyTrackerId ← loadId pdu p
        let latencyThreshold ← loadLe32 pdu (p + 28)
        let currentLatency ← loadLe32 pdu (p + 32)
        Logged.note (.guardSlot allocated i)
        let passed := decide (currentLatency < latencyThreshold)
        let (guards, pos', success') ←
          parseGuardBlocks pdu bodyLen allocated count (i + 1) (pos + R_GUARD_BLOCK_WIRE_LEN)
            (if passed then success else false)
        return ({ latencyTrackerId := latencyTrackerId
                  thresholdMs := latencyThreshold
                  currentLatencyMs := currentLatency
                  passed := passed } :: guards, pos', success')

/-- The resource loop from block `i` on. -/
def parseResourceBlocks (pdu : Bytes) (bodyLen allocated : Nat) :
    (count i pos : Nat) → (success : Bool) → Traced (List RResourceResult × Bool)
  | 0, _, _, success => return ([], success)
  | count + 1, i, pos, success =>
      if bodyLen < pos + R_RESOURCE_BLOCK_WIRE_LEN then Logged.fail .errProtocol
      else do
        let p := R_PDU_HEADER_LEN + pos
        let bucketId ← loadId pdu p
        let actualRate ← loadLe32 pdu (p + 20)
        let tokensDeficit ← loadLe16 pdu (p + 24)
        Logged.note (.resourceSlot allocated i)
        let (resources, success') ←
          parseResourceBlocks pdu bodyLen allocated count (i + 1)
            (pos + R_RESOURCE_BLOCK_WIRE_LEN) (if tokensDeficit ≠ 0 then false else success)
        return ({ bucketId := bucketId
                  tokensDeficit := tokensDeficit
                  actualRate := actualRate } :: resources, success')

/-- `r_parse_rate_response_pdu` with arrays of `guards` and `resources` entries. -/
def rParseRateResponsePdu (pdu : Bytes) (pduLen guards guardCap resources resCap : Nat) :
    Traced RRateResponse :=
  if pduLen < R_PDU_HEADER_LEN then Logged.fail .errProtocol
  else do
    let pduType ← loadLe16 pdu 0
    if pduType ≠ R_PDU_RATE_RESPONSE then Logged.fail .errProtocol
    else do
      let pduSize ← loadLe16 pdu 2
      if pduSize.toNat < R_PDU_HEADER_LEN || pduLen < pduSize.toNat then Logged.fail .errProtocol
      else
        let bodyLen := pduSize.toNat - R_PDU_HEADER_LEN
        if bodyLen < 4 then Logged.fail .errProtocol
        else do
          let guardCount ← loadLe16 pdu R_PDU_HEADER_LEN
          let resourceCount ← loadLe16 pdu (R_PDU_HEADER_LEN + 2)
          if guardCount.toNat > guardCap || resourceCount.toNat > resCap then do
            Logged.note .capacityExceeded
            Logged.fail .errProtocol
          else do
            let (guards, pos, success) ←
              parseGuardBlocks pdu bodyLen guards guardCount.toNat 0 4 true
            let (resources, success') ←
              parseResourceBlocks pdu bodyLen resources resourceCount.toNat 0 pos success
            return { guards := guards, resources := resources, success := success' }

/-- `r_parse_rate_response_alloc`, which allocates as many entries as it reads. -/
def rParseRateResponseAlloc (pdu : Bytes) (alloc : ResponseAlloc) : Traced RRateResponse :=
  if pdu.length < R_PDU_HEADER_LEN then Logged.fail .errProtocol
  else do
    let pduType ← loadLe16 pdu 0
    if pduType ≠ R_PDU_RATE_RESPONSE then Logged.fail .errProtocol
    else do
      let pduSize ← loadLe16 pdu 2
      if pduSize.toNat < R_PDU_HEADER_LEN || pdu.length < pduSize.toNat then
        Logged.fail .errProtocol
      else
        let bodyLen := pduSize.toNat - R_PDU_HEADER_LEN
        if bodyLen < 4 then Logged.fail .errProtocol
        else do
          let guardCount ← loadLe16 pdu R_PDU_HEADER_LEN
          let resCount ← loadLe16 pdu (R_PDU_HEADER_LEN + 2)
          if guardCount.toNat > 0 && !alloc.guards then Logged.fail .errNomem
          else if resCount.toNat > 0 && !alloc.resources then Logged.fail .errNomem
          else
            rParseRateResponsePdu pdu pduSize.toNat guardCount.toNat guardCount.toNat
              resCount.toNat resCount.toNat

/-! ### The accesses leave the result alone -/

theorem result_loadBytes (pdu : Bytes) (n offset : Nat) :
    (loadBytes pdu n offset).result = .ok (FixedBytes.ofSlice n pdu offset).val := by
  induction n generalizing offset with
  | zero => rfl
  | succ n ih =>
    rw [loadBytes, Logged.result_bind_ok (a := pdu.getD offset 0) rfl,
      Logged.result_bind_ok (ih (offset + 1))]
    simp only [Logged.result_pure, FixedBytes.ofSlice, List.range_succ_eq_map, List.map_cons,
      List.map_map, Function.comp_def, Nat.add_zero, Nat.succ_eq_add_one, Nat.add_assoc,
      Nat.add_comm 1]

@[simp] theorem result_loadLe16 (pdu : Bytes) (offset : Nat) :
    (loadLe16 pdu offset).result = .ok (rLe16 pdu offset) := by
  rw [loadLe16, Logged.result_bind_ok (result_loadBytes pdu 2 offset)]
  rfl

@[simp] theorem result_loadLe32 (pdu : Bytes) (offset : Nat) :
    (loadLe32 pdu offset).result = .ok (rLe32 pdu offset) := by
  rw [loadLe32, Logged.result_bind_ok (result_loadBytes pdu 4 offset)]
  rfl

@[simp] theorem result_loadId (pdu : Bytes) (offset : Nat) :
    (loadId pdu offset).result = .ok (FixedBytes.ofSlice 16 pdu offset) := by
  have hval := FixedBytes.ofSlice_val_append (FixedBytes.ofSlice 16 pdu offset) []
  rw [List.append_nil] at hval
  rw [loadId, Logged.result_bind_ok (result_loadBytes pdu 16 offset), Logged.result_pure, hval]

theorem result_parseGuardBlocks (pdu : Bytes) (bodyLen allocated count i pos : Nat)
    (success : Bool) :
    (parseGuardBlocks pdu bodyLen allocated count i pos success).result =
      RlClient.parseGuardBlocks (pdu.drop R_PDU_HEADER_LEN) bodyLen count pos success := by
  induction count generalizing i pos success with
  | zero => rfl
  | succ count ih =>
    have hblock : readGuardResult (pdu.drop R_PDU_HEADER_LEN) pos =
        { latencyTrackerId := FixedBytes.ofSlice 16 pdu (R_PDU_HEADER_LEN + pos)
          thresholdMs := rLe32 pdu (R_PDU_HEADER_LEN + pos + 28)
          currentLatencyMs := rLe32 pdu (R_PDU_HEADER_LEN + pos + 32)
          passed := decide (rLe32 pdu (R_PDU_HEADER_LEN + pos + 32) <
            rLe32 pdu (R_PDU_HEADER_LEN + pos + 28)) } := by
      simp only [readGuardResult, rLe32_drop, FixedBytes.ofSlice_drop, Nat.add_assoc]
    rw [parseGuardBlocks, RlClient.parseGuardBlocks]
    split
    · rfl
    rw [Logged.result_bind_ok (result_loadId _ _), Logged.result_bind_ok (result_loadLe32 _ _),
      Logged.result_bind_ok (result_loadLe32 _ _), Logged.result_bind_ok (Logged.result_note _)]
    simp only [hblock]
    generalize (if decide (rLe32 pdu (R_PDU_HEADER_LEN + pos + 32) <
        rLe32 pdu (R_PDU_HEADER_LEN + pos + 28)) then success else false) = success'
    have hrest := ih (i + 1) (pos + R_GUARD_BLOCK_WIRE_LEN) success'
    split
    · rename_i hresult
      rw [Logged.result_bind_error (hrest.trans hresult)]
    · rename_i hresult
      rw [Logged.result_bind_ok (hrest.trans hresult)]
      rfl

theorem result_parseResourceBlocks (pdu : Bytes) (bodyLen allocated count i pos : Nat)
    (success : Bool) :
    (parseResourceBlocks pdu bodyLen allocated count i pos success).result =
      RlClient.parseResourceBlocks (pdu.drop R_PDU_HEADER_LEN) bodyLen count pos success := by
  induction count generalizing i pos success with
  | zero => rfl
  | succ count ih =>
    have hblock : readResourceResult (pdu.drop R_PDU_HEADER_LEN) pos =
        { bucketId := FixedBytes.ofSlice 16 pdu (R_PDU_HEADER_LEN + pos)
          tokensDeficit := rLe16 pdu (R_PDU_HEADER_LEN + pos + 24)
          actualRate := rLe32 pdu (R_PDU_HEADER_LEN + pos + 20) } := by
      simp only [readResourceResult, rLe32_drop, rLe16_drop, FixedBytes.ofSlice_drop,
        Nat.add_assoc]
    rw [parseResourceBlocks, RlClient.parseResourceBlocks]
    split
    · rfl
    rw [Logged.result_bind_ok (result_loadId _ _), Logged.result_bind_ok (result_loadLe32 _ _),
      Logged.result_bind_ok (result_loadLe16 _ _), Logged.result_bind_ok (Logged.result_note _)]
    simp only [hblock]
    generalize (if rLe16 pdu (R_PDU_HEADER_LEN + pos + 24) ≠ 0 then false else success) = success'
    have hrest := ih (i + 1) (pos + R_RESOURCE_BLOCK_WIRE_LEN) success'
    split
    · rename_i hresult
      rw [Logged.result_bind_error (hrest.trans hresult)]
    · rename_i hresult
      rw [Logged.result_bind_ok (hrest.trans hresult)]
      rfl

/-- The length of the arrays plays no role for the result, only the capacity that
    is passed with them. -/
theorem result_rParseRateResponsePdu (pdu : Bytes)
    (pduLen guards guardCap resources resCap : Nat) :
    (rParseRateResponsePdu pdu pduLen guards guardCap resources resCap).result =
      RlClient.rParseRateResponsePdu pdu pduLen guardCap resCap := by
  have hcounts : rLe16 (pdu.drop R_PDU_HEADER_LEN) 0 = rLe16 pdu R_PDU_HEADER_LEN ∧
      rLe16 (pdu.drop R_PDU_HEADER_LEN) 2 = rLe16 pdu (R_PDU_HEADER_LEN + 2) :=
    ⟨rLe16_drop pdu R_PDU_HEADER_LEN 0, rLe16_drop pdu R_PDU_HEADER_LEN 2⟩
  unfold rParseRateResponsePdu RlClient.rParseRateResponsePdu
  simp only [hcounts]
  split
  · rfl
  rw [Logged.result_bind_ok (result_loadLe16 _ _)]
  split
  · rfl
  rw [Logged.result_bind_ok (result_loadLe16 _ _)]
  split
  · rfl
  split
  · rfl
  rw [Logged.result_bind_ok (result_loadLe16 _ _), Logged.result_bind_ok (result_loadLe16 _ _)]
  split
  · rw [Logged.result_bind_ok (Logged.result_note _), Logged.result_fail]
  split
  · rename_i hguards
    rw [Logged.result_bind_error ((result_parseGuardBlocks ..).trans hguards)]
  · rename_i hguards
    rw [Logged.result_bind_ok ((result_parseGuardBlocks ..).trans hguards)]
    simp only
    split
    · rename_i hresources
      rw [Logged.result_bind_error ((result_parseResourceBlocks ..).trans hresources)]
    · rename_i hresources
      rw [Logged.result_bind_ok ((result_parseResourceBlocks ..).trans hresources)]
      rfl

theorem result_rParseRateResponseAlloc (pdu : Bytes) (alloc : ResponseAlloc) :
    (rParseRateResponseAlloc pdu alloc).result = RlClient.rParseRateResponseAlloc pdu alloc := by
  have hcounts : rLe16 (pdu.drop R_PDU_HEADER_LEN) 0 = rLe16 pdu R_PDU_HEADER_LEN ∧
      rLe16 (pdu.drop R_PDU_HEADER_LEN) 2 = rLe16 pdu (R_PDU_HEADER_LEN + 2) :=
    ⟨rLe16_drop pdu R_PDU_HEADER_LEN 0, rLe16_drop pdu R_PDU_HEADER_LEN 2⟩
  unfold rParseRateResponseAlloc RlClient.rParseRateResponseAlloc
  simp only [hcounts]
  split
  · rfl
  rw [Logged.result_bind_ok (result_loadLe16 _ _)]
  split
  · rfl
  rw [Logged.result_bind_ok (result_loadLe16 _ _)]
  split
  · rfl
  split
  · rfl
  rw [Logged.result_bind_ok (result_loadLe16 _ _), Logged.result_bind_ok (result_loadLe16 _ _)]
  split
  · rfl
  split
  · rfl
  exact result_rParseRateResponsePdu ..

/-! ### Bounds -/

variable {P : Access → Prop}

theorem within_loadBytes {pdu : Bytes} {n offset : Nat}
    (hbytes : ∀ k < n, P (.byte (offset + k))) : Logged.Within P (loadBytes pdu n offset) := by
  induction n generalizing offset with
  | zero => exact Logged.within_pure _
  | succ n ih =>
    refine ((Logged.within_note (hbytes 0 (by omega))).bind fun _ _ => Logged.within_pure _).bind
      fun _ _ => (ih ?_).bind fun _ _ => Logged.within_pure _
    intro k hk
    have hbyte := hbytes (k + 1) (by omega)
    rwa [show offset + (k + 1) = offset + 1 + k by omega] at hbyte

theorem within_loadLe16 {pdu : Bytes} {offset : Nat}
    (hbytes : ∀ k < 2, P (.byte (offset + k))) : Logged.Within P (loadLe16 pdu offset) :=
  (within_loadBytes hbytes).bind fun _ _ => Logged.within_pure _

theorem within_loadLe32 {pdu : Bytes} {offset : Nat}
    (hbytes : ∀ k < 4, P (.byte (offset + k))) : Logged.Within P (loadLe32 pdu offset) :=
  (within_loadBytes hbytes).bind fun _ _ => Logged.within_pure _

theorem within_loadId {pdu : Bytes} {offset : Nat}
    (hbytes : ∀ k < 16, P (.byte (offset + k))) : Logged.Within P (loadId pdu offset) :=
  (within_loadBytes hbytes).bind fun _ _ => Logged.within_pure _

/-- The guard loop reads inside the body and fills the next `count` entries. -/
theorem within_parseGuardBlocks {pdu : Bytes} {bodyLen allocated count i pos : Nat}
    {success : Bool} (hbody : ∀ k < bodyLen, P (.byte (R_PDU_HEADER_LEN + k)))
    (hslots : ∀ k, i ≤ k → k < i + count → P (.guardSlot allocated k)) :
    Logged.Within P (parseGuardBlocks pdu bodyLen allocated count i pos success) := by
  induction count generalizing i pos success with
  | zero => exact Logged.within_pure _
  | succ count ih =>
    rw [parseGuardBlocks]
    split
    · exact Logged.within_fail _
    rename_i hblock
    have hlen : R_GUARD_BLOCK_WIRE_LEN = 36 := rfl
    have hbyte : ∀ off < 36, P (.byte (R_PDU_HEADER_LEN + pos + off)) := by
      intro off hoff
      rw [Nat.add_assoc]
      exact hbody (pos + off) (by omega)
    refine (within_loadId fun k hk => hbyte k (by omega)).bind fun _ _ => ?_
    refine (within_loadLe32 fun k hk => ?_).bind fun _ _ => ?_
    · rw [Nat.add_assoc]
      exact hbyte (28 + k) (by omega)
    refine (within_loadLe32 fun k hk => ?_).bind fun _ _ => ?_
    · rw [Nat.add_assoc]
      exact hbyte (32 + k) (by omega)
    refine (Logged.within_note (hslots i (by omega) (by omega))).bind fun _ _ => ?_
    refine (ih fun k hlow hhigh => hslots k (by omega) (by omega)).bind fun _ _ => ?_
    exact Logged.within_pure _

theorem within_parseResourceBlocks {pdu : Bytes} {bodyLen allocated count i pos : Nat}
    {success : Bool} (hbody : ∀ k < bodyLen, P (.byte (R_PDU_HEADER_LEN + k)))
    (hslots : ∀ k, i ≤ k → k < i + count → P (.resourceSlot allocated k)) :
    Logged.Within P (parseResourceBlocks pdu bodyLen allocated count i pos success) := by
  induction count generalizing i pos success with
  | zero => exact Logged.within_pure _
  | succ count ih =>
    rw [parseResourceBlocks]
    split
    · exact Logged.within_fail _
    rename_i hblock
    have hlen : R_RESOURCE_BLOCK_WIRE_LEN = 28 := rfl
    have hbyte : ∀ off < 28, P (.byte (R_PDU_HEADER_LEN + pos + off)) := by
      intro off hoff
      rw [Nat.add_assoc]
      exact hbody (pos + off) (by omega)
    refine (within_loadId fun k hk => hbyte k (by omega)).bind fun _ _ => ?_
    refine (within_loadLe32 fun k hk => ?_).bind fun _ _ => ?_
    · rw [Nat.add_assoc]
      exact hbyte (20 + k) (by omega)
    refine (within_loadLe16 fun k hk => ?_).bind fun _ _ => ?_
    · rw [Nat.add_assoc]
      exact hbyte (24 + k) (by omega)
    refine (Logged.within_note (hslots i (by omega) (by omega))).bind fun _ _ => ?_
    refine (ih fun k hlow hhigh => hslots k (by omega) (by omega)).bind fun _ _ => ?_
    exact Logged.within_pure _

/-- An access inside the PDU and the arrays: the type and the size stand at the
    front, all other bytes before the declared size; the branch for arrays that are
    too small is not taken. -/
def InBounds (pdu : Bytes) : Access → Prop
  | .byte offset => offset < pdu.length ∧ (4 ≤ offset → offset < (rLe16 pdu 2).toNat)
  | .guardSlot allocated index => index < allocated
  | .resourceSlot allocated index => index < allocated
  | .capacityExceeded => False

/-- Called with the counts it is going to read as capacities, the parser stays in
    bounds. -/
theorem within_rParseRateResponsePdu {pdu : Bytes} (hlen : 8 ≤ pdu.length)
    (hsize : (rLe16 pdu 2).toNat ≤ pdu.length) :
    Logged.Within (InBounds pdu)
      (rParseRateResponsePdu pdu (rLe16 pdu 2).toNat (rLe16 pdu R_PDU_HEADER_LEN).toNat
        (rLe16 pdu R_PDU_HEADER_LEN).toNat (rLe16 pdu (R_PDU_HEADER_LEN + 2)).toNat
        (rLe16 pdu (R_PDU_HEADER_LEN + 2)).toNat) := by
  have hheader : R_PDU_HEADER_LEN = 8 := rfl
  unfold rParseRateResponsePdu
  split
  · exact Logged.within_fail _
  refine (within_loadLe16 fun k hk => ⟨by omega, by omega⟩).bind fun pduType _ => ?_
  split
  · exact Logged.within_fail _
  refine (within_loadLe16 fun k hk => ⟨by omega, by omega⟩).bind fun pduSize hpduSize => ?_
  rw [result_loadLe16, Except.ok.injEq] at hpduSize
  subst hpduSize
  split
  · exact Logged.within_fail _
  simp only
  split
  · exact Logged.within_fail _
  rename_i hbody
  refine (within_loadLe16 fun k hk => ⟨by omega, by omega⟩).bind fun guardCount hguardCount => ?_
  refine (within_loadLe16 fun k hk => ⟨by omega, by omega⟩).bind fun resCount hresCount => ?_
  rw [result_loadLe16, Except.ok.injEq] at hguardCount hresCount
  subst hguardCount hresCount
  rw [if_neg (by simp)]
  have hbytes : ∀ k < (rLe16 pdu 2).toNat - R_PDU_HEADER_LEN,
      InBounds pdu (.byte (R_PDU_HEADER_LEN + k)) :=
    fun k hk => ⟨by omega, by omega⟩
  refine (within_parseGuardBlocks hbytes fun k _ hk => ?_).bind fun _ _ =>
    (within_parseResourceBlocks hbytes fun k _ hk => ?_).bind fun _ _ => Logged.within_pure _
  · show k < _
    omega
  · show k < _
    omega

theorem within_rParseRateResponseAlloc (pdu : Bytes) (alloc : ResponseAlloc) :
    Logged.Within (InBounds pdu) (rParseRateResponseAlloc pdu alloc) := by
  have hheader : R_PDU_HEADER_LEN = 8 := rfl
  unfold rParseRateResponseAlloc
  split
  · exact Logged.within_fail _
  refine (within_loadLe16 fun k hk => ⟨by omega, by omega⟩).bind fun pduType _ => ?_
  split
  · exact Logged.within_fail _
  refine (within_loadLe16 fun k hk => ⟨by omega, by omega⟩).bind fun pduSize hpduSize => ?_
  rw [result_loadLe16, Except.ok.injEq] at hpduSize
  subst hpduSize
  split
  · exact Logged.within_fail _
  rename_i hsize
  simp only [Bool.or_eq_true, decide_eq_true_eq, not_or, Nat.not_lt] at hsize
  simp only
  split
  · exact Logged.within_fail _
  refine (within_loadLe16 fun k hk => ⟨by omega, by omega⟩).bind fun guardCount hguardCount => ?_
  refine (within_loadLe16 fun k hk => ⟨by omega, by omega⟩).bind fun resCount hresCount => ?_
  rw [result_loadLe16, Except.ok.injEq] at hguardCount hresCount
  subst hguardCount hresCount
  split
  · exact Logged.within_fail _
  split
  · exact Logged.within_fail _
  exact within_rParseRateResponsePdu (by omega) hsize.2

end Traced

/-! ### The whole parser -/

/-- **The response parser is exact and stays in bounds.** With its allocations it
    accepts the grammar and nothing else, and returns the fields at their offsets.
    The form of the parser that logs its accesses has the same result whether the
    allocations succeed or not, and all it logs is in bounds. -/
theorem response_parser_exact (pdu : Bytes) (alloc : ResponseAlloc) :
    (alloc.guards = true → alloc.resources = true →
      ((∃ response, rParseRateResponseAlloc pdu alloc = .ok response) ↔ ResponseGrammar pdu) ∧
      ∀ response, rParseRateResponseAlloc pdu alloc = .ok response →
        response.guards.length = (rLe16 pdu 8).toNat ∧
        response.resources.length = (rLe16 pdu 10).toNat ∧
        (∀ i < (rLe16 pdu 8).toNat, response.guards[i]? = some (guardResultAt pdu i)) ∧
        (∀ i < (rLe16 pdu 10).toNat,
          response.resources[i]? = some (resourceResultAt pdu (rLe16 pdu 8).toNat i)) ∧
        (∀ guard ∈ response.guards,
          guard.passed = true ↔ guard.currentLatencyMs < guard.thresholdMs) ∧
        (response.success = true ↔ (∀ guard ∈ response.guards, guard.passed = true) ∧
          ∀ resource ∈ response.resources, resource.tokensDeficit = 0)) ∧
    (Traced.rParseRateResponseAlloc pdu alloc).result = rParseRateResponseAlloc pdu alloc ∧
    ∀ access ∈ (Traced.rParseRateResponseAlloc pdu alloc).log, Traced.InBounds pdu access := by
  refine ⟨fun hguards hresources => ?_, Traced.result_rParseRateResponseAlloc pdu alloc,
    Traced.within_rParseRateResponseAlloc pdu alloc⟩
  rcases rParseRateResponseAlloc_exact pdu hguards hresources with
    ⟨hgrammar, hok⟩ | ⟨hgrammar, herror⟩
  · refine ⟨⟨fun _ => hgrammar, fun _ => ⟨_, hok⟩⟩, ?_⟩
    intro response hresponse
    obtain rfl : responseAt pdu = response := by
      rw [hok] at hresponse
      exact Except.ok.inj hresponse
    refine ⟨by simp [responseAt], by simp [responseAt], ?_, ?_, ?_, ?_⟩
    · intro i hi
      simp [responseAt, hi]
    · intro i hi
      simp [responseAt, hi]
    · intro guard hguard
      obtain ⟨i, -, rfl⟩ := List.mem_map.mp hguard
      simp [guardResultAt]
    · simp [responseAt]
  · refine ⟨⟨fun ⟨response, hresponse⟩ => ?_, fun h => absurd h hgrammar⟩, ?_⟩
    · rw [herror] at hresponse
      cases hresponse
    · intro response hresponse
      rw [herror] at hresponse
      cases hresponse

/-- A response with one guard that passes and one resource without a deficit; the
    declared size leaves two bytes inside and one byte behind it unused. -/
def sampleResponsePdu : Bytes :=
  rWriteLe16 0x5252 ++ rWriteLe16 78 ++ List.replicate 4 0 ++ rWriteLe16 1 ++ rWriteLe16 1 ++
    (List.replicate 28 1 ++ rWriteLe32 20 ++ rWriteLe32 19) ++
    (List.replicate 20 2 ++ rWriteLe32 9 ++ rWriteLe16 0 ++ rWriteLe16 0) ++ [5, 6, 7]

theorem response_parser_exact_sample :
    ∃ response, rParseRateResponseAlloc sampleResponsePdu ⟨true, true⟩ = .ok response ∧
      response.guards = [⟨FixedBytes.replicate 16 1, 20, 19, true⟩] ∧
      response.resources = [⟨FixedBytes.replicate 16 2, 0, 9⟩] ∧ response.success = true := by
  obtain ⟨hiff, hfields⟩ := (response_parser_exact sampleResponsePdu ⟨true, true⟩).1 rfl rfl
  obtain ⟨response, hresponse⟩ := hiff.mpr (by decide +kernel)
  obtain ⟨hguards, hresources, hguard, hresource, -, hsuccess⟩ := hfields response hresponse
  have hguardList : response.guards = [guardResultAt sampleResponsePdu 0] := by
    obtain ⟨guard, hone⟩ := List.length_eq_one_iff.mp hguards
    have hfirst := hguard 0 (by decide)
    rw [hone] at hfirst ⊢
    simpa using hfirst
  have hresourceList : response.resources = [resourceResultAt sampleResponsePdu 1 0] := by
    obtain ⟨resource, hone⟩ := List.length_eq_one_iff.mp hresources
    have hfirst := hresource 0 (by decide)
    have hcount : (rLe16 sampleResponsePdu 8).toNat = 1 := by decide +kernel
    rw [hone, hcount] at hfirst
    rw [hone]
    simpa using hfirst
  rw [hguardList, hresourceList] at hsuccess
  refine ⟨response, hresponse, hguardList.trans ?_, hresourceList.trans ?_, hsuccess.mpr ?_⟩
  · decide +kernel
  · decide +kernel
  · decide +kernel

end RlClient
