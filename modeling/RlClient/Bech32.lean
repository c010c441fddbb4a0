import RlClient.Machine

/-!
# Credential strings

Model of the Bech32 part of `src/r_crypto.c` and of `r_client_parse_auth_key`. A
string is the list of its characters before the terminating NUL. The decoder
writes its outputs before it looks at the quota word, so the outputs are modelled
with what they held before the call.
-/

namespace RlClient

/-! ### Characters -/

/-- `islower` of the C locale. -/
def isLower (c : UInt8) : Bool := 97 ≤ c && c ≤ 122

/-- `isupper` of the C locale. -/
def isUpper (c : UInt8) : Bool := 65 ≤ c && c ≤ 90

/-- `tolower` of the C locale. -/
def toLower (c : UInt8) : UInt8 := if isUpper c then c + 32 else c

/-- `strrchr`: the index of the last occurrence. -/
def strrchr : Bytes → UInt8 → Option Nat
  | [], _ => none
  | b :: rest, c =>
      match strrchr rest c with
      | some i => some (i + 1)
      | none => if b = c then some 0 else none

/-- `r_bech32_char_value`. -/
def rBech32CharValue (c : UInt8) : Option UInt8 :=
  match Char.ofNat c.toNat with
  | 'q' => some 0
  | 'p' => some 1
  | 'z' => some 2
  | 'r' => some 3
  | 'y' => some 4
  | '9' => some 5
  | 'x' => some 6
  | '8' => some 7
  | 'g' => some 8
  | 'f' => some 9
  | '2' => some 10
  | 't' => some 11
  | 'v' => some 12
  | 'd' => some 13
  | 'w' => some 14
  | '0' => some 15
  | 's' => some 16
  | '3' => some 17
  | 'j' => some 18
  | 'n' => some 19
  | '5' => some 20
  | '4' => some 21
  | 'k' => some 22
  | 'h' => some 23
  | 'c' => some 24
  | 'e' => some 25
  | '6' => some 26
  | 'm' => some 27
  | 'u' => some 28
  | 'a' => some 29
  | '7' => some 30
  | 'l' => some 31
  | _ => none

/-! ### The checksum -/

def kBech32Gen : List UInt32 := [0x3B6A57B2, 0x26508E6D, 0x1EA119FA, 0x3D4233DD, 0x2A1462B3]

/-- One round of the outer loop of `r_bech32_polymod`. -/
def polymodStep (chk : UInt32) (value : UInt8) : UInt32 :=
  let b := chk >>> 25
  (List.range 5).foldl
    (fun chk j =>
      if ((b >>> UInt32.ofNat j) &&& 1) != 0 then chk ^^^ kBech32Gen.getD j 0 else chk)
    (((chk &&& 0x1FFFFFF) <<< 5) ^^^ value.toUInt32)

/-- `r_bech32_polymod`. -/
def rBech32Polymod (values : Bytes) : UInt32 := values.foldl polymodStep 1

/-- The prefix as `r_bech32_verify_checksum` lays it out in front of the data. -/
def hrpExpand (hrp : Bytes) : Bytes :=
  hrp.map (fun (c : UInt8) => c >>> 5) ++ 0 :: hrp.map (fun (c : UInt8) => c &&& 31)

/-- Which of the decoder's buffers `malloc` grants: the folded copy, `data`, the
    `values` of the checksum and `payload`. -/
structure DecodeAlloc where
  copy : Bool
  data : Bool
  values : Bool
  payload : Bool

def DecodeAlloc.granted : DecodeAlloc := ⟨true, true, true, true⟩

/-- `r_bech32_verify_checksum`. -/
def rBech32VerifyChecksum (alloc : DecodeAlloc) (hrp data : Bytes) : Bool :=
  alloc.values && rBech32Polymod (hrpExpand hrp ++ data) == 1

/-! ### Regrouping -/

/-- The inner loop of `r_convert_bits_5_to_8_no_pad`: whole bytes leave the
    accumulator, or the output is full. -/
def drainBits (acc : UInt32) (outCap : Nat) : Nat → Bytes → Option (Nat × Bytes)
  | bits + 8, out =>
      if out.length ≥ outCap then none
      else drainBits acc outCap bits (out ++ [((acc >>> UInt32.ofNat bits) &&& 0xFF).toUInt8])
  | bits, out => some (bits, out)

/-- The outer loop of `r_convert_bits_5_to_8_no_pad`. -/
def convertBitsLoop (outCap : Nat) :
    Bytes → UInt32 → Nat → Bytes → Option (UInt32 × Nat × Bytes)
  | [], acc, bits, out => some (acc, bits, out)
  | value :: rest, acc, bits, out =>
      if value >>> 5 != 0 then none
      else
        let acc := ((acc <<< 5) ||| value.toUInt32) &&& 0x0FFF
        match drainBits acc outCap (bits + 5) out with
        | none => none
        | some (bits, out) => convertBitsLoop outCap rest acc bits out

/-- `r_convert_bits_5_to_8_no_pad`: what is left over is shorter than a group and
    all zero. -/
def rConvertBits5To8NoPad (input : Bytes) (outCap : Nat) : Option Bytes :=
  match convertBitsLoop outCap input 0 0 [] with
  | none => none
  | some (acc, bits, out) =>
      if bits ≥ 5 then none
      else if ((acc <<< UInt32.ofNat (8 - bits)) &&& 0xFF) != 0 then none
      else some out

/-! ### The payload -/

def R_CREDENTIAL_FORMAT_VERSION : UInt8 := 1
def R_CREDENTIAL_VERSION_LEN : Nat := 1
def R_CREDENTIAL_KEY_ID_LEN : Nat := 8
def R_CREDENTIAL_SECRET_LEN : Nat := 32
def R_CREDENTIAL_KEY_ID_OFFSET : Nat := R_CREDENTIAL_VERSION_LEN
def R_CREDENTIAL_SECRET_OFFSET : Nat := R_CREDENTIAL_KEY_ID_OFFSET + R_CREDENTIAL_KEY_ID_LEN
def R_CREDENTIAL_QUOTA_OFFSET : Nat := R_CREDENTIAL_SECRET_OFFSET + R_CREDENTIAL_SECRET_LEN
def R_CREDENTIAL_QUOTA_LEN : Nat := 4
def R_CREDENTIAL_PAYLOAD_LEN : Nat := R_CREDENTIAL_QUOTA_OFFSET + R_CREDENTIAL_QUOTA_LEN

/-- `r_decode_quota_word`. -/
def rDecodeQuotaWord (word : UInt32) : Option RBech32Quotas :=
  let rateExp := word &&& 0x1f
  let latencyExp := (word >>> 5) &&& 0x1f
  let labelsExp := (word >>> 10) &&& 0x1f
  let bufferExp := (word >>> 15) &&& 0x0f
  let dedupUnits := (word >>> 19) &&& 0xff
  let windowExp := (word >>> 27) &&& 0x1f
  if rateExp > 24 || latencyExp > 24 || dedupUnits < 1 || dedupUnits > 200 then none
  else
    some
      { formatVersion := R_CREDENTIAL_FORMAT_VERSION
        rateBucketsMax := 1 <<< rateExp
        latencyServicesMax := 1 <<< latencyExp
        metricsLabelsMax := 1 <<< labelsExp
        latencyBufferSizeMax := 1 <<< bufferExp
        dedupTtlMsMax := dedupUnits * 10
        rateWindowSizeMsMax := if windowExp = 31 then 0xFFFFFFFF else 1 <<< windowExp }

/-! ### The decoder -/

/-- The scan over the characters of the string: whether lower and upper case
    letters occur, unless a character is not printable. -/
def scanCase : Bytes → Bool → Bool → Option (Bool × Bool)
  | [], hasLower, hasUpper => some (hasLower, hasUpper)
  | c :: rest, hasLower, hasUpper =>
      if c < 33 || c > 126 then none
      else scanCase rest (hasLower || isLower c) (hasUpper || isUpper c)

/-- The loop that turns the characters behind the separator into 5-bit groups. -/
def charValues : Bytes → Option Bytes
  | [] => some []
  | c :: rest =>
      match rBech32CharValue c with
      | none => none
      | some value => (charValues rest).map (value :: ·)

/-- The first half of `r_decode_api_key_bech32_with_quotas`: the prefix and the
    regrouped payload of a well-formed string. -/
def rBech32Open (alloc : DecodeAlloc) (encoded : Bytes) : Option (Bytes × Bytes) :=
  if encoded.length = 0 then none
  else
    match scanCase encoded false false with
    | none => none
    | some (hasLower, hasUpper) =>
        if hasLower && hasUpper then none
        else if !alloc.copy then none
        else
          let s := encoded.map toLower
          match strrchr s 49 with
          | none => none
          | some hrpLen =>
              let dataCharsLen := encoded.length - hrpLen - 1
              if hrpLen < 1 then none
              else if dataCharsLen < 6 then none
              else if !alloc.data then none
              else
                match charValues (s.drop (hrpLen + 1)) with
                | none => none
                | some data =>
                    if !rBech32VerifyChecksum alloc (s.take hrpLen) data then none
                    else if !alloc.payload then none
                    else
                      let payload5Len := dataCharsLen - 6
                      (rConvertBits5To8NoPad (data.take payload5Len) (payload5Len * 5 / 8 + 2)).map
                        fun payload => (s.take hrpLen, payload)

/-- The comparisons of the prefix with the two credential types. -/
def hrpAuthType (hrp : Bytes) : Option RAuthType :=
  if hrp = asciiBytes "rl-cookie" then some .cookie
  else if hrp = asciiBytes "rl-aes" then some .aesGcm
  else none

/-- The cells that `r_decode_api_key_bech32_with_quotas` writes; `quotas` is absent
    when the caller passes no pointer for them. -/
structure DecodeOut (outSecretCap : Nat) where
  authType : RAuthType
  keyId : UInt64
  secret : FixedBytes outSecretCap
  secretLen : Nat
  quotas : Option RBech32Quotas

/-- The write of the secret to the front of the caller's buffer. -/
def storeSecret (secret : FixedBytes R_CREDENTIAL_SECRET_LEN) (buffer : FixedBytes cap) :
    FixedBytes cap :=
  .ofSlice cap (secret.val ++ buffer.val.drop R_CREDENTIAL_SECRET_LEN) 0

/-- `r_decode_api_key_bech32_with_quotas`: the return code and the output cells. -/
def rDecodeApiKeyBech32WithQuotas (alloc : DecodeAlloc) (encoded : Bytes)
    (out : DecodeOut cap) : Int × DecodeOut cap :=
  match rBech32Open alloc encoded with
  | none => (-1, out)
  | some (hrp, payload) =>
      match hrpAuthType hrp with
      | none => (-1, out)
      | some authType =>
          if payload.length ≠ R_CREDENTIAL_PAYLOAD_LEN then (-1, out)
          else if payload.getD 0 0 ≠ R_CREDENTIAL_FORMAT_VERSION then (-1, out)
          else if R_CREDENTIAL_SECRET_LEN > cap then (-1, out)
          else
            -- The secret, the type and the key id are stored before the quotas are checked.
            let stored : DecodeOut cap :=
              { authType := authType
                keyId := rLe64 payload R_CREDENTIAL_KEY_ID_OFFSET
                secret := storeSecret
                  (.ofSlice R_CREDENTIAL_SECRET_LEN payload R_CREDENTIAL_SECRET_OFFSET) out.secret
                secretLen := R_CREDENTIAL_SECRET_LEN
                quotas := out.quotas }
            if payload.length < R_CREDENTIAL_QUOTA_OFFSET + R_CREDENTIAL_QUOTA_LEN then (-1, stored)
            else
              match rDecodeQuotaWord (rLe32 payload R_CREDENTIAL_QUOTA_OFFSET) with
              | none => (-1, stored)
              | some quotas => (0, { stored with quotas := out.quotas.map fun _ => quotas })

/-! ### The callers -/

def RBech32Quotas.zero : RBech32Quotas := ⟨0, 0, 0, 0, 0, 0, 0⟩

/-- The cleared cells that both callers hand to the decoder. -/
def DecodeOut.cleared (cap : Nat) : DecodeOut cap :=
  ⟨.derive, 0, .replicate cap 0, 0, some .zero⟩

/-- `r_auth_key_info_t`. -/
structure RAuthKeyInfo where
  formatVersion : UInt8
  authType : RAuthType
  keyId : UInt64
  secret : FixedBytes 32
  secretLen : Nat
  rateBucketsMax : UInt32
  latencyServicesMax : UInt32
  metricsLabelsMax : UInt32
  latencyBufferSizeMax : UInt32
  dedupTtlMsMax : UInt32
  rateWindowSizeMsMax : UInt32
deriving DecidableEq

def RAuthKeyInfo.zero : RAuthKeyInfo := ⟨0, .derive, 0, .replicate 32 0, 0, 0, 0, 0, 0, 0, 0⟩

/-- `r_client_parse_auth_key`: the status and `out_info`. -/
def rClientParseAuthKey (alloc : DecodeAlloc) (encoded : Option Bytes) (outInfo : RAuthKeyInfo) :
    RClientError × RAuthKeyInfo :=
  match encoded with
  | none => (.errConfig, outInfo)
  | some encoded =>
      let (rc, out) := rDecodeApiKeyBech32WithQuotas alloc encoded (.cleared 32)
      let quotas := out.quotas.getD .zero
      if rc ≠ 0 then (.errConfig, .zero)
      else if (out.authType ≠ .cookie ∧ out.authType ≠ .aesGcm) ∨ out.secretLen ≠ 32 then
        (.errConfig, .zero)
      else
        (.ok,
          { formatVersion := quotas.formatVersion
            authType := out.authType
            keyId := out.keyId
            secret := out.secret
            secretLen := out.secretLen
            rateBucketsMax := quotas.rateBucketsMax
            latencyServicesMax := quotas.latencyServicesMax
            metricsLabelsMax := quotas.metricsLabelsMax
            latencyBufferSizeMax := quotas.latencyBufferSizeMax
            dedupTtlMsMax := quotas.dedupTtlMsMax
            rateWindowSizeMsMax := quotas.rateWindowSizeMsMax })

/-- What `r_client_configure_auth` has of its copy of the secret once it is decoded:
    nothing unless the decoder succeeds with 32 bytes. -/
def configuredKey (alloc : DecodeAlloc) (authSecret : Bytes) : Option DecodedKey :=
  let (rc, out) := rDecodeApiKeyBech32WithQuotas alloc authSecret (.cleared 64)
  if rc ≠ 0 ∨ out.secretLen ≠ 32 then none
  else
    some
      { authType := out.authType
        keyId := out.keyId
        secret := .ofSlice 32 out.secret.val 0
        quotas := out.quotas.getD .zero }

end RlClient
