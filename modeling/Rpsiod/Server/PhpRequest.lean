import Rpsiod.Lib.FastCgiRequest
import Rpsiod.Server.EventFraming
import Rpsiod.Server.PhpRun

/-!
# The request that `send_php_fpm` writes

* `fcgiWriteRecord_eq`: `fcgi_write_record` writes a padded record.
* `addParam_cases`: `fcgi_add_param` either puts a pair behind the others or changes nothing.
* `fpmWrites`: what `send_php_fpm` writes to a backend that takes everything.
* `fcgi_request_carries`: **the request decodes to its parameters and its body**, and its
  `CONTENT_LENGTH` is the length of that body.
-/

namespace Rpsiod

open FastCgi

/-! ### Records -/

/-- `fcgi_write_record`: the bytes that it writes. -/
def fcgiWriteRecord (type : UInt8) (requestId : UInt16) (content : Bytes) (contentLen : UInt16) :
    Bytes :=
  let padding : UInt8 := ((8 - contentLen % 8) % 8).toUInt8
  [1, type, (requestId >>> 8).toUInt8, (requestId &&& 0xff).toUInt8,
    (contentLen >>> 8).toUInt8, (contentLen &&& 0xff).toUInt8, padding, 0] ++
    content.take contentLen.toNat ++ List.replicate padding.toNat 0

/-! ### The parameter buffer -/

/-- `params` and `used`. -/
structure ParamBuffer where
  bytes : Bytes
  used : ℕ
  used_le : used ≤ bytes.length

/-- What is used of the buffer. -/
def ParamBuffer.content (b : ParamBuffer) : Bytes := b.bytes.take b.used

/-- The buffer before the first parameter: whatever is on the stack. -/
def ParamBuffer.fresh (memory : Bytes) : ParamBuffer where
  bytes := memory
  used := 0
  used_le := Nat.zero_le _

/-- `fcgi_name_value`: the memory at `out`, and the number of bytes written there. -/
def fcgiNameValueAt (out name value : Bytes) : Bytes × ℕ :=
  let nameBytes := if name.length < 128 then 1 else 4
  let valueBytes := if value.length < 128 then 1 else 4
  let need := name.length + value.length + nameBytes + valueBytes
  if out.length < need then (out, 0)
  else (fcgiNameValue name value ++ out.drop need, need)

theorem length_fcgiLength (n : ℕ) : (fcgiLength n).length = if n < 128 then 1 else 4 := by
  unfold fcgiLength
  split_ifs <;> rfl

theorem length_fcgiNameValue (name value : Bytes) :
    (fcgiNameValue name value).length =
      name.length + value.length + (if name.length < 128 then 1 else 4) +
        (if value.length < 128 then 1 else 4) := by
  unfold fcgiNameValue
  simp only [List.length_append, length_fcgiLength]
  omega

theorem fcgiNameValueAt_eq (out name value : Bytes) :
    fcgiNameValueAt out name value =
      if out.length < (fcgiNameValue name value).length then (out, 0)
      else (fcgiNameValue name value ++ out.drop (fcgiNameValue name value).length,
        (fcgiNameValue name value).length) := by
  rw [length_fcgiNameValue]
  rfl

theorem fcgiNameValue_pos (name value : Bytes) : 0 < (fcgiNameValue name value).length := by
  rw [length_fcgiNameValue]
  split_ifs <;> omega

theorem addParam_used_le (b : ParamBuffer) (name value : Bytes) :
    b.used + (fcgiNameValueAt (b.bytes.drop b.used) name value).2 ≤
      (b.bytes.take b.used ++ (fcgiNameValueAt (b.bytes.drop b.used) name value).1).length := by
  have hused := b.used_le
  rw [fcgiNameValueAt_eq, List.length_append, List.length_take]
  split_ifs with hlt
  · simp only [List.length_drop]
    omega
  · simp only [List.length_append]
    omega

/-- `fcgi_add_param`. -/
def ParamBuffer.addParam (b : ParamBuffer) (p : Field) : ParamBuffer × ℤ :=
  let r := fcgiNameValueAt (b.bytes.drop b.used) p.1 p.2
  if r.2 = 0 then (b, -1)
  else
    ({ bytes := b.bytes.take b.used ++ r.1
       used := b.used + r.2
       used_le := addParam_used_le b p.1 p.2 }, 0)

/-- One parameter after the other, up to the first that does not fit. -/
def ParamBuffer.addParams (b : ParamBuffer) : List Field → ParamBuffer × ℤ
  | [] => (b, 0)
  | p :: ps =>
      let r := b.addParam p
      if r.2 < 0 then (r.1, -1) else r.1.addParams ps

/-! ### The request -/

/-- What `send_php_fpm` writes from the parameters on, to a backend that takes everything. -/
def fcgiStreams (b : ParamBuffer) (pairs : List Field) (body : Bytes) : Bytes :=
  let r := b.addParams pairs
  if r.2 < 0 then []
  else
    let params :=
      fcgiWriteRecord 4 1 r.1.bytes (UInt16.ofNat r.1.used) ++ fcgiWriteRecord 4 1 [] 0
    if 65535 < body.length then params
    else
      params ++ (if body = [] then [] else fcgiWriteRecord 5 1 body (UInt16.ofNat body.length)) ++
        fcgiWriteRecord 5 1 [] 0

/-- BEGIN_REQUEST, as `send_php_fpm` writes it. -/
def fcgiBegin : Bytes := fcgiWriteRecord 1 1 [0, 1, 0, 0, 0, 0, 0, 0] 8

/-- What `send_php_fpm` writes to a backend that takes everything; `memory` is what its buffer of
parameters holds at first. -/
def fpmWrites (client : Client) (site : Site) (req : HttpRequest) (script body memory : Bytes) :
    Bytes :=
  if 4096 ≤ (scriptFilename site script).length then fcgiBegin
  else if 4096 ≤ (scriptName script).length then fcgiBegin
  else fcgiBegin ++ fcgiStreams (.fresh memory) (fcgiParamList client site req script) body

/-! ### Adding parameters -/

/-- Inversion of `fcgi_add_param`: a pair that does not fit changes nothing, any other stands
behind what is there. -/
theorem addParam_cases (b : ParamBuffer) (p : Field) :
    (b.bytes.length < b.used + (fcgiNameValue p.1 p.2).length ∧ b.addParam p = (b, -1)) ∨
      (b.used + (fcgiNameValue p.1 p.2).length ≤ b.bytes.length ∧
        ∃ b', b.addParam p = (b', 0) ∧ b'.content = b.content ++ fcgiNameValue p.1 p.2 ∧
          b'.used = b.used + (fcgiNameValue p.1 p.2).length ∧
          b'.bytes.length = b.bytes.length) := by
  have hused := b.used_le
  have hpos := fcgiNameValue_pos p.1 p.2
  have hat := fcgiNameValueAt_eq (b.bytes.drop b.used) p.1 p.2
  rw [List.length_drop] at hat
  by_cases hlt : b.bytes.length - b.used < (fcgiNameValue p.1 p.2).length
  · left
    rw [if_pos hlt] at hat
    refine ⟨by omega, ?_⟩
    unfold ParamBuffer.addParam
    rw [if_pos (congrArg Prod.snd hat)]
  · right
    rw [if_neg hlt] at hat
    have hfirst := congrArg Prod.fst hat
    have hsecond := congrArg Prod.snd hat
    have htake : (b.bytes.take b.used).length = b.used := List.length_take_of_le hused
    refine ⟨by omega, ⟨_, _, addParam_used_le b p.1 p.2⟩, ?_, ?_, ?_, ?_⟩
    · unfold ParamBuffer.addParam
      rw [if_neg (by rw [hsecond]; exact Nat.ne_of_gt hpos)]
    · show List.take (b.used + _) (b.bytes.take b.used ++ _) = b.bytes.take b.used ++ _
      rw [hfirst, hsecond]
      simp only
      rw [List.take_append, htake, Nat.add_sub_cancel_left, List.take_left,
        List.take_of_length_le (by omega)]
    · show b.used + _ = b.used + _
      rw [hsecond]
    · show (b.bytes.take b.used ++ _).length = _
      rw [hfirst]
      simp only [List.length_append, List.length_drop, htake]
      omega

/-- The code of some pairs. -/
def pairsBytes (pairs : List Field) : Bytes := pairs.flatMap encodePair

theorem pairsBytes_cons (p : Field) (ps : List Field) :
    pairsBytes (p :: ps) = fcgiNameValue p.1 p.2 ++ pairsBytes ps := rfl

/-- All pairs are added if there is room for all of them, and only then. -/
theorem addParams_cases (b : ParamBuffer) (ps : List Field) :
    (b.bytes.length < b.used + (pairsBytes ps).length ∧ (b.addParams ps).2 = -1) ∨
      (b.used + (pairsBytes ps).length ≤ b.bytes.length ∧
        ∃ b', b.addParams ps = (b', 0) ∧ b'.content = b.content ++ pairsBytes ps ∧
          b'.used = b.used + (pairsBytes ps).length) := by
  induction ps generalizing b with
  | nil =>
      right
      exact ⟨b.used_le, b, rfl, (List.append_nil _).symm, rfl⟩
  | cons p ps ih =>
      rw [pairsBytes_cons, List.length_append]
      unfold ParamBuffer.addParams
      rcases addParam_cases b p with ⟨hlt, hadd⟩ | ⟨hle, b', hadd, hcontent, hused, hlen⟩
      · left
        rw [hadd]
        exact ⟨by omega, rfl⟩
      · rw [hadd]
        simp only
        rw [if_neg (lt_irrefl 0)]
        rcases ih b' with ⟨hlt, hrc⟩ | ⟨hle', b'', hrun, hcontent', hused'⟩
        · left
          exact ⟨by omega, hrc⟩
        · right
          refine ⟨by omega, b'', hrun, ?_, by omega⟩
          rw [hcontent', hcontent, List.append_assoc]

/-- The parameters in their buffer are what `fcgiParams` says they are. -/
theorem foldlM_fcgiAddParam (bufLen : ℕ) (ps : List Field) {params : Bytes}
    (h : params.length ≤ bufLen) :
    ps.foldlM (fcgiAddParam bufLen) params =
      if bufLen < params.length + (pairsBytes ps).length then none
      else some (params ++ pairsBytes ps) := by
  induction ps generalizing params with
  | nil =>
      rw [if_neg (by simpa [pairsBytes] using h)]
      simp [pairsBytes]
  | cons p ps ih =>
      rw [List.foldlM_cons, pairsBytes_cons, List.length_append]
      by_cases hlt : bufLen - params.length < (fcgiNameValue p.1 p.2).length
      · have hadd : fcgiAddParam bufLen params p = none := if_pos hlt
        rw [hadd, if_pos (by omega)]
        rfl
      · have hadd : fcgiAddParam bufLen params p = some (params ++ fcgiNameValue p.1 p.2) :=
          if_neg hlt
        rw [hadd, Option.bind_eq_bind, Option.bind_some,
          ih (by rw [List.length_append]; omega), List.length_append, List.append_assoc,
          Nat.add_assoc]

/-! ### Records of a request -/

/-- `fcgi_write_record` writes a padded record. -/
theorem fcgiWriteRecord_eq (type : UInt8) (requestId : UInt16) {content : Bytes} {n : ℕ}
    (hn : n < 65536) (hle : n ≤ content.length) :
    fcgiWriteRecord type requestId content (UInt16.ofNat n) =
      encode (padded type ((requestId >>> 8).toUInt8, (requestId &&& 0xff).toUInt8)
        (content.take n) (lt_of_le_of_lt (List.length_take_le _ _) hn)) := by
  have hlen : (UInt16.ofNat n).toNat = n := by
    rw [UInt16.toNat_ofNat']
    omega
  have hhigh : ((UInt16.ofNat n) >>> 8).toUInt8 = highByte n := by
    apply UInt8.toNat_inj.mp
    unfold highByte
    rw [UInt16.toNat_toUInt8, UInt16.toNat_shiftRight, hlen, UInt8.toNat_ofNat']
    show n >>> 8 % 2 ^ 8 = _
    rw [Nat.shiftRight_eq_div_pow]
    omega
  have hlow : ((UInt16.ofNat n) &&& 0xff).toUInt8 = lowByte n := by
    apply UInt8.toNat_inj.mp
    unfold lowByte
    rw [UInt16.toNat_toUInt8, UInt16.toNat_and, hlen, UInt8.toNat_ofNat']
    show (n &&& 2 ^ 8 - 1) % 2 ^ 8 = _
    rw [Nat.and_two_pow_sub_one_eq_mod]
  have hpadding : ((8 - UInt16.ofNat n % 8) % 8).toUInt8 = lowByte (paddingFor n) := by
    apply UInt8.toNat_inj.mp
    unfold lowByte paddingFor
    rw [UInt16.toNat_toUInt8, UInt16.toNat_mod, UInt16.toNat_sub, UInt16.toNat_mod, hlen,
      UInt8.toNat_ofNat']
    show (2 ^ 16 - n % 8 + 8) % 2 ^ 16 % 8 % 2 ^ 8 = _
    omega
  have htoNat : (lowByte (paddingFor n)).toNat = paddingFor n := by
    apply toNat_lowByte
    unfold paddingFor
    omega
  unfold fcgiWriteRecord encode padded
  simp only
  rw [hlen, hhigh, hlow, hpadding, htoNat, List.length_take_of_le hle, List.length_replicate]

/-- The bytes are a request with these parameters and this body, in records of whole multiples of
eight bytes and with nothing behind them. -/
def IsFcgiRequest (pairs : List Field) (body bytes : Bytes) : Prop :=
  ∃ m : RequestRecords, decodeAll bytes = m.all ∧ m.all.flatMap encode = bytes ∧
    m.Carries (0, 1) pairs body ∧ ∀ r ∈ m.all, (encode r).length % 8 = 0

/-- A padded record of request 1. -/
def recordOf (kind : UInt8) (content : Bytes) (h : content.length < 65536) : Record :=
  padded kind (0, 1) content h

/-- The body in records: one, or none. -/
def stdinRecords (body : Bytes) (h : body.length < 65536) : List Record :=
  if body = [] then [] else [recordOf 5 body h]

/-- The records that `send_php_fpm` writes. -/
def requestRecords (params body : Bytes) (hparams : params.length < 65536)
    (hbody : body.length < 65536) : RequestRecords where
  start := recordOf 1 [0, 1, 0, 0, 0, 0, 0, 0] (by decide)
  params := [recordOf 4 params hparams]
  endParams := recordOf 4 [] (by decide)
  stdin := stdinRecords body hbody
  endStdin := recordOf 5 [] (by decide)

theorem mem_requestRecords {params body : Bytes} {hparams : params.length < 65536}
    {hbody : body.length < 65536} {r : Record}
    (h : r ∈ (requestRecords params body hparams hbody).all) :
    ∃ kind content hcontent, r = recordOf kind content hcontent := by
  unfold RequestRecords.all requestRecords stdinRecords at h
  simp only [List.mem_cons, List.mem_append, List.not_mem_nil, or_false] at h
  rcases h with rfl | rfl | rfl | h | rfl
  · exact ⟨_, _, _, rfl⟩
  · exact ⟨_, _, _, rfl⟩
  · exact ⟨_, _, _, rfl⟩
  · split_ifs at h
    · exact absurd h (List.not_mem_nil)
    · exact ⟨_, _, _, List.mem_singleton.mp h⟩
  · exact ⟨_, _, _, rfl⟩

/-- What the records carry. -/
theorem requestRecords_carries {pairs : List Field} {params body : Bytes}
    {hparams : params.length < 65536} {hbody : body.length < 65536}
    (h : params = pairsBytes pairs) :
    (requestRecords params body hparams hbody).Carries (0, 1) pairs body where
  version := fun r hr => by
    obtain ⟨kind, content, hcontent, rfl⟩ := mem_requestRecords hr
    exact ⟨rfl, rfl⟩
  start := ⟨rfl, rfl⟩
  params_kind := fun r hr => by
    rw [List.mem_singleton.mp hr]
    rfl
  params_ne := fun hne r hr => by
    rw [List.mem_singleton.mp hr]
    show params ≠ []
    rw [h]
    obtain ⟨p, ps, rfl⟩ := List.exists_cons_of_ne_nil hne
    intro hnil
    exact encodePair_ne_nil p (List.append_eq_nil_iff.mp hnil).1
  params := by
    show decodePairs (params ++ []) = some pairs
    rw [List.append_nil, h]
    apply decodePairs_encode
    intro p hp
    have hmem : (encodePair p).length ≤ (pairsBytes pairs).length := by
      obtain ⟨front, back, rfl⟩ := List.append_of_mem hp
      unfold pairsBytes
      simp only [List.flatMap_append, List.flatMap_cons, List.length_append]
      omega
    have hlength := length_le_length_encodePair p
    rw [← h] at hmem
    omega
  endParams := ⟨rfl, rfl⟩
  stdin_kind := fun r hr => by
    unfold requestRecords stdinRecords at hr
    simp only at hr
    split_ifs at hr with hnil
    · exact absurd hr List.not_mem_nil
    · rw [List.mem_singleton.mp hr]
      exact ⟨rfl, hnil⟩
  stdin := by
    unfold requestRecords stdinRecords
    simp only
    split_ifs with hnil
    · exact hnil.symm
    · exact List.append_nil _
  endStdin := ⟨rfl, rfl⟩

/-- The records of a request are the bytes that were written. -/
theorem requestRecords_bytes (params body : Bytes) (hparams : params.length < 65536)
    (hbody : body.length < 65536) :
    (requestRecords params body hparams hbody).all.flatMap encode =
      fcgiBegin ++
        (encode (recordOf 4 params hparams) ++ fcgiWriteRecord 4 1 [] 0 ++
          (if body = [] then [] else fcgiWriteRecord 5 1 body (UInt16.ofNat body.length)) ++
          fcgiWriteRecord 5 1 [] 0) := by
  have hstdin : (stdinRecords body hbody).flatMap encode =
      if body = [] then [] else fcgiWriteRecord 5 1 body (UInt16.ofNat body.length) := by
    unfold stdinRecords
    split_ifs
    · rfl
    · rw [fcgiWriteRecord_eq 5 1 hbody le_rfl, List.flatMap_singleton]
      unfold recordOf
      simp only [List.take_length]
      rfl
  have hempty : ∀ kind, fcgiWriteRecord kind 1 [] 0 = encode (recordOf kind [] (by decide)) :=
    fun kind => @fcgiWriteRecord_eq kind 1 [] 0 (by decide) (Nat.le_refl 0)
  have hbegin : fcgiBegin = encode (recordOf 1 [0, 1, 0, 0, 0, 0, 0, 0] (by decide)) := by
    decide
  rw [← hstdin, hempty, hempty, hbegin]
  unfold RequestRecords.all requestRecords
  simp only [List.flatMap_cons, List.flatMap_append, List.flatMap_nil, List.append_nil,
    List.append_assoc]

/-- The parameters and the body that were written are a request. -/
theorem isFcgiRequest_of_fits {memory : Bytes} {pairs : List Field} {body : Bytes}
    (hmemory : memory.length ≤ 65535) (hfits : (pairsBytes pairs).length ≤ memory.length)
    (hbody : body.length ≤ 65535) :
    IsFcgiRequest pairs body (fcgiBegin ++ fcgiStreams (.fresh memory) pairs body) := by
  have hlt : body.length < 65536 := Nat.lt_succ_of_le hbody
  rcases addParams_cases (.fresh memory) pairs with ⟨hover, -⟩ | ⟨-, b, hrun, hcontent, hused⟩
  · exact absurd hfits (not_le.mpr (by simpa [ParamBuffer.fresh] using hover))
  have hcontent' : b.bytes.take b.used = pairsBytes pairs := hcontent
  have hused' : b.used = (pairsBytes pairs).length := by simpa [ParamBuffer.fresh] using hused
  have hparams : (b.bytes.take b.used).length < 65536 := by
    rw [hcontent']
    omega
  have hrecord : fcgiWriteRecord 4 1 b.bytes (UInt16.ofNat b.used) =
      encode (recordOf 4 (b.bytes.take b.used) hparams) :=
    fcgiWriteRecord_eq 4 1 (by omega) b.used_le
  have hbytes : fcgiBegin ++ fcgiStreams (.fresh memory) pairs body =
      (requestRecords (b.bytes.take b.used) body hparams hlt).all.flatMap encode := by
    rw [requestRecords_bytes, ← hrecord]
    unfold fcgiStreams
    rw [hrun]
    simp only
    rw [if_neg (lt_irrefl 0), if_neg (not_lt.mpr hbody)]
  rw [hbytes]
  refine ⟨requestRecords (b.bytes.take b.used) body hparams hlt, ?_, rfl,
    requestRecords_carries hcontent', fun r hr => ?_⟩
  · have hnil : decodeAll [] = [] := decodeAll_of_none rfl
    have hdecode := decodeAll_encode (requestRecords (b.bytes.take b.used) body hparams hlt).all []
    rwa [List.append_nil, hnil, List.append_nil] at hdecode
  · obtain ⟨kind, content, hcontent, rfl⟩ := mem_requestRecords hr
    exact length_encode_padded kind (0, 1) hcontent

/-! ### The length of the body -/

theorem Framed.body_length {stream rest : Bytes} {messages : List (HttpRequest × Bytes)}
    (h : Framed stream messages rest) :
    ∀ m ∈ messages, m.2.length = m.1.contentLength := by
  induction h with
  | done rest => exact fun m hm => absurd hm List.not_mem_nil
  | @message stream rest req more keep head complete tail ih =>
      intro m hm
      rcases List.mem_cons.mp hm with rfl | hm
      · show ((stream.drop req.headerLen).take req.contentLength).length = req.contentLength
        rw [List.length_take, List.length_drop]
        omega
      · exact ih m hm

/-- The variable `CONTENT_LENGTH` is there once. -/
theorem contentLength_of_fcgiParamList (client : Client) (site : Site) (req : HttpRequest)
    (script : Bytes) :
    (fcgiParamList client site req script).filter (fun p => p.1 = ascii "CONTENT_LENGTH") =
      [(ascii "CONTENT_LENGTH", decimal req.contentLength)] := by
  unfold fcgiParamList
  simp only
  rfl

theorem fits_of_fcgiParams {client : Client} {site : Site} {req : HttpRequest} {script : Bytes}
    (h : fcgiParams client site req script ≠ none) :
    (pairsBytes (fcgiParamList client site req script)).length ≤ 8192 := by
  unfold fcgiParams at h
  rw [foldlM_fcgiAddParam 8192 _ (Nat.zero_le _)] at h
  by_contra hlt
  rw [if_pos (by simpa using not_le.mp hlt)] at h
  exact h rfl

/-- **The request that `send_php_fpm` writes.**

* Whatever pairs fit the buffer, and whatever body of at most 65535 bytes is sent with them: the
  bytes decode to the records of that request.
* `fcgi_add_param` fails exactly if the pair does not fit, and then the buffer is as it was.
* For every request that a connection dispatches: when `send_php_fpm` gets to its loop it has
  written the CGI variables and the body, and `CONTENT_LENGTH` is the length of that body. -/
theorem fcgi_request_carries :
    (∀ (memory : Bytes) (pairs : List Field) (body : Bytes), memory.length = 8192 →
      (pairs.flatMap fun p => fcgiNameValue p.1 p.2).length ≤ 8192 → body.length ≤ 65535 →
      IsFcgiRequest pairs body (fcgiBegin ++ fcgiStreams (.fresh memory) pairs body)) ∧
    (∀ (b : ParamBuffer) (p : Field),
      ((b.addParam p).2 = 0 ∨ (b.addParam p).2 = -1) ∧
      ((b.addParam p).2 = -1 ↔
        b.bytes.length - b.used < (fcgiNameValue p.1 p.2).length) ∧
      ((b.addParam p).2 = -1 → (b.addParam p).1 = b)) ∧
    ∀ (cfg : Config) (env : Env) (arrivals : List SockEvent) (n : ℕ) (w : World)
      (req : HttpRequest) (body : Bytes),
      (req, body) ∈ dispatchedOf (Conn.rounds cfg w.client env n (.accepted arrivals)).calls →
      ∀ (site : Site) (script memory : Bytes) (fpm : Fpm), memory.length = 8192 →
        FpmReached w site req script body fpm →
        IsFcgiRequest (fcgiParamList w.client site req script) body
          (fpmWrites w.client site req script body memory) ∧
        (fcgiParamList w.client site req script).filter
            (fun p => p.1 = ascii "CONTENT_LENGTH") =
          [(ascii "CONTENT_LENGTH", decimal body.length)] := by
  refine ⟨fun memory pairs body hmemory hfits hbody => ?_, fun b p => ?_, ?_⟩
  · exact isFcgiRequest_of_fits (by omega) (by rw [hmemory]; exact hfits) hbody
  · have hused := b.used_le
    rcases addParam_cases b p with ⟨hlt, hadd⟩ | ⟨hle, b', hadd, -⟩
    · rw [hadd]
      exact ⟨Or.inr rfl, iff_of_true rfl (by omega), fun _ => rfl⟩
    · rw [hadd]
      have hzero : ¬(0 : ℤ) = -1 := by decide
      exact ⟨Or.inl rfl, iff_of_false hzero (by omega), fun h => absurd h hzero⟩
  · intro cfg env arrivals n w req body hmem site script memory fpm hmemory hreached
    obtain ⟨rest, hframed, -⟩ := framingInv_rounds cfg w.client env arrivals n
    have hlength : body.length = req.contentLength := hframed.body_length _ hmem
    refine ⟨?_, ?_⟩
    · unfold fpmWrites
      rw [if_neg (not_le.mpr hreached.filename), if_neg (not_le.mpr hreached.name)]
      exact isFcgiRequest_of_fits (by omega)
        (by rw [hmemory]; exact fits_of_fcgiParams hreached.params) hreached.body
    · rw [contentLength_of_fcgiParamList, hlength]

end Rpsiod
