import Rpsiod.Http2.Connection
import Rpsiod.Server.HeadText

/-!
# The response to an HTTP/2 client (`submit_parsed_loopback_response`)

The bytes that a backend has sent are taken apart again: the head into a status and header fields,
of which those of the connection are left out, and a chunked body into its data.  nghttp2 is given
the fields at once and asks for the body frame by frame.

* `parseLoopbackResponse`, `decodeChunkedBody`, `submitParsedLoopbackResponse`,
  `responseDataCallback`: the functions of `http2.c`; a system that has no memory left is an
  argument.
* `loopbackTokens_unlines`: the tokens of a head that is written line by line.
* `decodeChunkedBody_chunks`: **a chunked body is decoded** if its data is at most 64 MiB.
* `dataFrames_open`, `dataFrames_complete`: **the frames are the body**, cut as nghttp2 asks for
  them, and the last has the flag.
-/

namespace Rpsiod

open ListSearch Crlf Chunked Digits

/-! ### The head -/

/-- `blocked_h2_header`. -/
def blockedH2Header (name : Bytes) : Bool :=
  [ascii "connection", ascii "transfer-encoding", ascii "upgrade", ascii "keep-alive",
    ascii "proxy-connection"].any fun known => streqCi name known

/-- The loop of `header_value_has_token`; every round but the last moves the cursor. -/
def hasTokenLoop (token : Bytes) : ℕ → Bytes → Bool
  | 0, _ => false
  | fuel + 1, p =>
      if p = [] then false
      else
        let start := p.dropWhile fun c => isBlank c || c == 44
        let element := (start.takeWhile fun c => c != 44 && c != 59).rdropWhile isBlank
        streqCi element token || hasTokenLoop token fuel (start.dropWhile (· ≠ 44))

/-- `header_value_has_token`. -/
def headerValueHasToken (value token : Bytes) : Bool := hasTokenLoop token (value.length + 1) value

/-- `sscanf(line, "HTTP/%*s %d", &status)`. -/
def sscanfStatus (line : Bytes) : Option ℤ :=
  if !startsWith line (ascii "HTTP/") then none
  else
    let version := (line.drop 5).dropWhile isspace
    let number := (version.dropWhile fun c => !isspace c).dropWhile isspace
    let digits := if number.head? = some 45 ∨ number.head? = some 43 then number.tail else number
    if version = [] then none
    else if digits.head?.any isdigit then some (atoi number)
    else none

/-- What the loop over the header lines has found. -/
structure LoopbackHead where
  headers : List Field := []
  chunkedBody : Bool := false

/-- The room for headers. -/
def h2MaxHeaders : ℕ := 96

/-- The loop body on a header line. -/
def applyLoopbackLine (head : LoopbackHead) (line : Bytes) : LoopbackHead :=
  match splitFirst 58 line with
  | none => head
  | some (name, value) =>
      let name := trim name
      let value := trim value
      let chunkedBody := head.chunkedBody ||
        streqCi name (ascii "Transfer-Encoding") && headerValueHasToken value (ascii "chunked")
      if blockedH2Header name || name = [] || h2MaxHeaders ≤ head.headers.length then
        { head with chunkedBody := chunkedBody }
      else
        { headers := head.headers ++ [(safeCopy 128 name, safeCopy 4096 value)]
          chunkedBody := chunkedBody }

/-! ### The body -/

/-- The value of a digit of a chunk size. -/
def chunkDigit (ch : UInt8) : Option ℕ :=
  if 48 ≤ ch ∧ ch ≤ 57 then some (ch.toNat - 48)
  else if 97 ≤ ch ∧ ch ≤ 102 then some (10 + (ch.toNat - 97))
  else if 65 ≤ ch ∧ ch ≤ 70 then some (10 + (ch.toNat - 65))
  else none

/-- The loop over the digits: the size and what follows; `none` if it gets larger than
`H2_MAX_RESPONSE`. -/
def chunkDigits : ℕ → Bytes → Option (ℕ × Bytes)
  | chunkLen, [] => some (chunkLen, [])
  | chunkLen, ch :: rest =>
      match chunkDigit ch with
      | none => some (chunkLen, ch :: rest)
      | some digit =>
          if (h2MaxResponse - digit) / 16 < chunkLen then none
          else chunkDigits (chunkLen * 16 + digit) rest

/-- The size on a chunk line, which may go on with an extension. -/
def chunkLineSize (line : Bytes) : Option ℕ :=
  let start := line.dropWhile isBlank
  if start = [] then none
  else
    match chunkDigits 0 start with
    | none => none
    | some (chunkLen, rest) =>
        let more := rest.dropWhile isBlank
        if rest.length = start.length || (more ≠ [] && more.head? ≠ some 59) then none
        else some chunkLen

/-- The loop over the trailer lines: whether there is an empty one. -/
def trailersEnd : ℕ → Bytes → Bool
  | 0, _ => false
  | fuel + 1, rest =>
      match indexOfSub crlf rest with
      | none => false
      | some i => i = 0 || trailersEnd fuel (rest.drop (i + 2))

/-- The loop of `decode_chunked_body`; every round takes at least two bytes. -/
def decodeChunks : ℕ → Bytes → Bytes → Option Bytes
  | 0, _, _ => none
  | fuel + 1, rest, decoded =>
      match indexOfSub crlf rest with
      | none => none
      | some i =>
          let after := rest.drop (i + 2)
          match chunkLineSize (rest.take i) with
          | none => none
          | some chunkLen =>
              if chunkLen = 0 then
                if trailersEnd (after.length + 1) after then some decoded else none
              else if after.length < chunkLen || h2MaxResponse < chunkLen ||
                  h2MaxResponse - chunkLen < decoded.length then none
              else if !(crlf.isPrefixOf (after.drop chunkLen)) then none
              else decodeChunks fuel (after.drop (chunkLen + 2)) (decoded ++ after.take chunkLen)

/-- `decode_chunked_body`. -/
def decodeChunkedBody (body : Bytes) : Option Bytes := decodeChunks (body.length + 1) body []

/-! ### The response -/

/-- `h2_response`. -/
structure H2Response where
  status : ℤ
  headers : List Field
  body : Bytes

/-- The tokens of the head, as `strtok_r` gives them: up to the first NUL. -/
def loopbackTokens (head : Bytes) : List Bytes := strtokLines (head.takeWhile (· ≠ 0))

/-- `parse_loopback_response`. -/
def parseLoopbackResponse (allocates : Bool) (raw : Bytes) : Option H2Response :=
  match indexOfSub crlfcrlf raw with
  | none => none
  | some stop =>
      if !allocates then none
      else
        match loopbackTokens (raw.take stop) with
        | [] => none
        | line :: more =>
            match sscanfStatus line with
            | none => none
            | some status =>
                let head := more.foldl applyLoopbackLine {}
                let body := raw.drop (stop + 4)
                if head.chunkedBody then
                  (decodeChunkedBody body).map fun body => ⟨status, head.headers, body⟩
                else some ⟨status, head.headers, body⟩

/-- `response_has_header`. -/
def responseHasHeader (resp : H2Response) (name : Bytes) : Bool :=
  resp.headers.any fun f => streqCi f.1 name

/-- The response that nghttp2 is given: its fields, and the body that the data provider reads. -/
structure H2Submission where
  fields : List Field
  body : Bytes

/-- `char status[4]`. -/
def statusText (status : ℤ) : Bytes := safeCopy 4 (decimalInt status)

/-- The field that is added if there is none. -/
def hstsField : Field :=
  (ascii "strict-transport-security", ascii "max-age=31536000; includeSubDomains")

/-- `submit_simple_response`. -/
def submitSimpleResponse (status : ℤ) (body : Bytes) : H2Submission where
  fields := [(ascii ":status", statusText status),
    (ascii "content-type", ascii "text/plain; charset=utf-8")]
  body := body

/-- `submit_parsed_loopback_response`; `allocates` is about the array of the fields. -/
def submitParsedLoopbackResponse (allocatesParse allocates : Bool) (s : H2Stream) :
    Option H2Submission :=
  match parseLoopbackResponse allocatesParse s.rawResponse with
  | none => some (submitSimpleResponse 502 (ascii "502 Bad Gateway\n"))
  | some resp =>
      if !allocates then none
      else
        some
          { fields := (ascii ":status", statusText resp.status) :: resp.headers ++
              if responseHasHeader resp (ascii "Strict-Transport-Security") then [] else [hstsField]
            body := if streqCi s.method (ascii "HEAD") then [] else resp.body }

/-! ### The frames -/

/-- `response_data_callback`: the bytes, whether `NGHTTP2_DATA_FLAG_EOF` is set, and the new
`response_body_off`. -/
def responseDataCallback (body : Bytes) (off length : ℕ) : Bytes × Bool × ℕ :=
  let left := body.length - off
  if left = 0 then ([], true, off)
  else
    let n := min left length
    ((body.drop off).take n, off + n = body.length, off + n)

/-- The DATA frames, as nghttp2 asks for them with these lengths, up to the one with the flag. -/
def dataFrames (body : Bytes) : ℕ → List ℕ → List (Bytes × Bool)
  | _, [] => []
  | off, length :: lengths =>
      let r := responseDataCallback body off length
      (r.1, r.2.1) :: if r.2.1 then [] else dataFrames body r.2.2 lengths

/-- The DATA frames of a response; without a body there is no data provider. -/
def H2Submission.frames (sub : H2Submission) (lengths : List ℕ) : List (Bytes × Bool) :=
  if sub.body = [] then [] else dataFrames sub.body 0 lengths

/-! ### Parsing a head -/

/-- A number starts with a digit, which is neither white space nor a sign. -/
theorem exists_digit_decimal (n : ℕ) : ∃ d rest, decimal n = d :: rest ∧ isdigit d = true ∧
    isspace d = false ∧ d ≠ 45 ∧ d ≠ 43 := by
  obtain ⟨d, rest, hdecimal⟩ := List.exists_cons_of_ne_nil (@render_ne_nil 10 n)
  obtain ⟨k, hk, rfl⟩ := @exists_digit_of_mem_render 10 n (by decide) d
    (by rw [hdecimal]; exact List.mem_cons_self)
  have hall : ∀ k < 10, isdigit (digitByte k) = true ∧ isspace (digitByte k) = false ∧
      digitByte k ≠ 45 ∧ digitByte k ≠ 43 := by decide
  exact ⟨_, rest, hdecimal, hall k hk⟩

/-- The status of a status line. -/
theorem sscanfStatus_eq (status : ℤ) (tail : Bytes) :
    sscanfStatus (ascii "HTTP/1.1 " ++ decimalInt status ++ tail) =
      some (atoi (decimalInt status ++ tail)) := by
  set number := decimalInt status ++ tail with hnumber
  have hline : ascii "HTTP/1.1 " ++ decimalInt status ++ tail =
      72 :: 84 :: 84 :: 80 :: 47 :: 49 :: 46 :: 49 :: 32 :: number := by
    rw [List.append_assoc]
    rfl
  obtain ⟨c, more, hcons, hspace, hscan⟩ : ∃ c more, number = c :: more ∧ isspace c = false ∧
      ((if number.head? = some 45 ∨ number.head? = some 43 then number.tail else number).head?.any
        isdigit) = true := by
    unfold decimalInt at hnumber
    obtain ⟨d, rest, hd, hisdigit, hdspace, hd45, hd43⟩ := exists_digit_decimal status.natAbs
    by_cases hneg : status < 0
    · rw [if_pos hneg, hd] at hnumber
      refine ⟨45, d :: rest ++ tail, hnumber, by decide, ?_⟩
      rw [hnumber]
      exact hisdigit
    · rw [if_neg hneg, hd] at hnumber
      refine ⟨d, rest ++ tail, hnumber, hdspace, ?_⟩
      rw [hnumber]
      show ((if some d = some 45 ∨ some d = some 43 then rest ++ tail
        else d :: (rest ++ tail)).head?.any isdigit) = true
      rw [if_neg (by simp [hd45, hd43])]
      exact hisdigit
  have hdrop : number.dropWhile isspace = number := by
    rw [hcons]
    exact List.dropWhile_cons_of_neg (by rw [hspace]; exact Bool.false_ne_true)
  have hversion : (49 :: 46 :: 49 :: 32 :: number : Bytes).dropWhile isspace =
      49 :: 46 :: 49 :: 32 :: number := rfl
  have hword : ((49 :: 46 :: 49 :: 32 :: number : Bytes).dropWhile fun c => !isspace c) =
      32 :: number := rfl
  have hblank : (32 :: number : Bytes).dropWhile isspace = number := by
    rw [List.dropWhile_cons_of_pos (by decide), hdrop]
  rw [hline]
  unfold sscanfStatus
  rw [if_neg (by simp [startsWith, ascii])]
  simp only [List.drop_succ_cons, List.drop_zero]
  rw [hversion, hword, hblank, if_neg (List.cons_ne_nil _ _), if_pos hscan]

theorem zero_not_mem_unlines {ls : List Bytes} (h : ∀ l ∈ ls, IsText l) : 0 ∉ unlines ls := by
  induction ls with
  | nil => exact List.not_mem_nil
  | cons l ls ih =>
      rw [unlines_cons]
      intro hmem
      rcases List.mem_append.mp hmem with hmem | hmem
      · rcases List.mem_append.mp hmem with hmem | hmem
        · exact (h l List.mem_cons_self).2 hmem
        · exact absurd hmem (by decide)
      · exact ih (fun m hm => h m (List.mem_cons_of_mem l hm)) hmem

/-- A head that is written line by line: where it ends, its tokens, and the body. -/
theorem loopbackTokens_unlines {ls : List Bytes} (hne : ls ≠ [])
    (h : ∀ l ∈ ls, l ≠ [] ∧ IsText l) (body : Bytes) :
    ∃ stop, indexOfSub crlfcrlf (unlines ls ++ crlf ++ body) = some stop ∧
      loopbackTokens ((unlines ls ++ crlf ++ body).take stop) = ls.flatMap strtokLines ∧
      (unlines ls ++ crlf ++ body).drop (stop + 4) = body := by
  have hsplit := splitHead_unlines hne (fun l hl => ⟨(h l hl).1, (h l hl).2.1⟩) body
  obtain ⟨stop, hstop, hpair⟩ := Option.map_eq_some_iff.mp hsplit
  rw [Prod.mk.injEq] at hpair
  refine ⟨stop, hstop, ?_, hpair.2⟩
  set head := (unlines ls ++ crlf ++ body).take stop with hhead
  have hlines := unlines_lines head
  rw [hpair.1] at hlines
  have hzero : 0 ∉ head := by
    intro hmem
    apply zero_not_mem_unlines fun l hl => (h l hl).2
    rw [hlines]
    exact List.mem_append_left _ hmem
  have htake : head.takeWhile (· ≠ 0) = head := by
    apply List.takeWhile_eq_self_iff.mpr
    intro c hc
    simp only [decide_eq_true_iff]
    intro hc0
    exact hzero (hc0 ▸ hc)
  unfold loopbackTokens
  rw [htake, strtokLines_eq_flatMap, hpair.1]

/-! ### Decoding a chunked body -/

theorem chunkDigit_digitByte {k : ℕ} (h : k < 16) : chunkDigit (digitByte k) = some k := by
  have hall : ∀ k < 16, chunkDigit (digitByte k) = some k := by decide
  exact hall k h

/-- Digits are added up as long as the size is small enough. -/
theorem chunkDigits_eq {ds : Bytes} (h : ∀ c ∈ ds, ∃ k, k < 16 ∧ c = digitByte k) (n : ℕ)
    (hle : ds.foldl (fun n c => n * 16 + byteDigit c) n ≤ h2MaxResponse) :
    chunkDigits n ds = some (ds.foldl (fun n c => n * 16 + byteDigit c) n, []) := by
  have hgrow : ∀ (ds : Bytes) (n : ℕ), n ≤ ds.foldl (fun n c => n * 16 + byteDigit c) n := by
    intro ds
    induction ds with
    | nil => exact fun n => le_rfl
    | cons c ds ih =>
        intro n
        exact le_trans (by omega) (ih (n * 16 + byteDigit c))
  induction ds generalizing n with
  | nil => rfl
  | cons c ds ih =>
      obtain ⟨k, hk, hc⟩ := h c List.mem_cons_self
      rw [List.foldl_cons] at hle ⊢
      have hsize : n * 16 + byteDigit c ≤ h2MaxResponse := le_trans (hgrow ds _) hle
      have hdigit : chunkDigit c = some (byteDigit c) := by
        rw [hc, chunkDigit_digitByte hk, byteDigit_digitByte hk]
      unfold chunkDigits
      simp only [hdigit]
      rw [if_neg (by omega)]
      exact ih (fun d hd => h d (List.mem_cons_of_mem c hd)) _ hle

/-- The size that a sender writes. -/
theorem chunkLineSize_render {n : ℕ} (h : n ≤ h2MaxResponse) :
    chunkLineSize (render 16 n) = some n := by
  have hdigits : ∀ c ∈ render 16 n, ∃ k, k < 16 ∧ c = digitByte k := fun c hc =>
    exists_digit_of_mem_render (by decide) hc
  have hread : (render 16 n).foldl (fun n c => n * 16 + byteDigit c) 0 = n :=
    readDigits_render (by decide) le_rfl n
  have hscan := chunkDigits_eq hdigits 0 (by rw [hread]; exact h)
  rw [hread] at hscan
  have hstart : (render 16 n).dropWhile isBlank = render 16 n := by
    obtain ⟨c, rest, hcons⟩ := List.exists_cons_of_ne_nil (@render_ne_nil 16 n)
    obtain ⟨k, hk, hc⟩ := hdigits c (by rw [hcons]; exact List.mem_cons_self)
    have hall : ∀ k < 16, isBlank (digitByte k) = false := by decide
    rw [hcons, List.dropWhile_cons_of_neg (by rw [hc, hall k hk]; exact Bool.false_ne_true)]
  have hlength : 0 < (render 16 n).length := List.length_pos_of_ne_nil render_ne_nil
  unfold chunkLineSize
  rw [hstart, if_neg render_ne_nil, hscan]
  refine if_neg ?_
  simp only [List.length_nil, List.dropWhile_nil, ne_eq, not_true_eq_false, decide_false,
    Bool.false_and, Bool.or_false, decide_eq_true_iff]
  exact Nat.ne_of_lt hlength

/-- The front of a written chunk. -/
theorem decodeChunks_chunk (fuel : ℕ) {data : Bytes} (ne : data ≠ []) (tail decoded : Bytes)
    (h : decoded.length + data.length ≤ h2MaxResponse) :
    decodeChunks (fuel + 1) (chunk data ++ tail) decoded =
      decodeChunks fuel tail (decoded ++ data) := by
  have hpos : 0 < data.length := List.length_pos_of_ne_nil ne
  obtain ⟨hindex, hline, hafter⟩ := chunk_line data tail
  have hsize : chunkLineSize ((chunk data ++ tail).take (render 16 data.length).length) =
      some data.length := by
    rw [hline, chunkLineSize_render (by omega)]
  have hend : (data ++ (crlf ++ tail)).drop data.length = crlf ++ tail := List.drop_left
  have hrest : (data ++ (crlf ++ tail)).drop (data.length + 2) = tail := by
    rw [List.drop_length_add_append]
    rfl
  have hcrlf : crlf.isPrefixOf (crlf ++ tail) = true :=
    List.isPrefixOf_iff_prefix.mpr (List.prefix_append _ _)
  rw [decodeChunks, hindex]
  simp only [hsize, hafter, hend, hrest, hcrlf, List.take_left]
  rw [if_neg (by omega), if_neg]
  · rfl
  · simp only [List.length_append, Bool.or_eq_true, decide_eq_true_iff]
    omega

theorem decodeChunks_lastChunk (fuel : ℕ) (tail decoded : Bytes) :
    decodeChunks (fuel + 1) (lastChunk ++ tail) decoded = some decoded := by
  have hsplit : lastChunk ++ tail = [48] ++ 13 :: 10 :: (crlf ++ tail) := rfl
  have hline : ([48] ++ 13 :: 10 :: (crlf ++ tail)).take ([48] : Bytes).length = [48] := rfl
  have hafter : ([48] ++ 13 :: 10 :: (crlf ++ tail)).drop (([48] : Bytes).length + 2) =
      crlf ++ tail := rfl
  have hsize : chunkLineSize [48] = some 0 := by decide
  have hempty : indexOfSub crlf (crlf ++ tail) = some 0 := @indexOfSub_crlf [] (by decide) tail
  have hend : trailersEnd ((crlf ++ tail).length + 1) (crlf ++ tail) = true := by
    unfold trailersEnd
    rw [hempty]
    rfl
  rw [decodeChunks, hsplit, indexOfSub_crlf (by decide)]
  simp only [hline, hafter, hsize, if_true, hend]

theorem decodeChunks_chunks {segments : List Bytes} (ne : ∀ s ∈ segments, s ≠ [])
    (tail decoded : Bytes) (h : decoded.length + segments.flatten.length ≤ h2MaxResponse)
    (fuel : ℕ) (hfuel : segments.length < fuel) :
    decodeChunks fuel (segments.flatMap chunk ++ (lastChunk ++ tail)) decoded =
      some (decoded ++ segments.flatten) := by
  induction segments generalizing fuel decoded with
  | nil =>
      obtain ⟨fuel, rfl⟩ := Nat.exists_eq_add_one_of_ne_zero (Nat.ne_of_gt hfuel)
      rw [List.flatten_nil, List.append_nil]
      exact decodeChunks_lastChunk fuel tail decoded
  | cons s segments ih =>
      obtain ⟨fuel, rfl⟩ := Nat.exists_eq_add_one_of_ne_zero (Nat.ne_of_gt (Nat.zero_lt_of_lt hfuel))
      rw [List.length_cons, Nat.succ_lt_succ_iff] at hfuel
      rw [List.flatten_cons, List.length_append] at h
      rw [List.flatMap_cons, List.append_assoc,
        decodeChunks_chunk fuel (ne s List.mem_cons_self) _ _ (by omega),
        ih (fun t ht => ne t (List.mem_cons_of_mem s ht)) (decoded ++ s)
          (by rw [List.length_append]; omega) fuel hfuel,
        List.flatten_cons, List.append_assoc]

/-- **A chunked body is decoded.** -/
theorem decodeChunkedBody_chunks {segments : List Bytes} (ne : ∀ s ∈ segments, s ≠ [])
    (h : segments.flatten.length ≤ h2MaxResponse) :
    decodeChunkedBody (segments.flatMap chunk ++ lastChunk) = some segments.flatten := by
  have hlength := length_le_flatMap_chunk segments
  have hdecode := decodeChunks_chunks ne [] [] (by rw [List.length_nil]; omega)
    ((segments.flatMap chunk ++ lastChunk).length + 1) (by rw [List.length_append]; omega)
  rwa [List.append_nil, List.nil_append] at hdecode

/-! ### Cutting a body into frames -/

/-- A body that is not over yet: the frames are its next bytes, and none has the flag. -/
theorem dataFrames_open {body : Bytes} {off : ℕ} {lengths : List ℕ}
    (h : off + lengths.sum < body.length) :
    (dataFrames body off lengths).flatMap Prod.fst = (body.drop off).take lengths.sum ∧
      ∀ f ∈ dataFrames body off lengths, f.2 = false := by
  induction lengths generalizing off with
  | nil => exact ⟨by simp [dataFrames], fun f hf => absurd hf List.not_mem_nil⟩
  | cons n lengths ih =>
      rw [List.sum_cons] at h
      have hmin : min (body.length - off) n = n := by omega
      have hcall : responseDataCallback body off n = ((body.drop off).take n, false, off + n) := by
        unfold responseDataCallback
        simp only [hmin]
        rw [if_neg (by omega), decide_eq_false (by omega)]
      obtain ⟨hbytes, hflags⟩ := @ih (off + n) (by omega)
      unfold dataFrames
      simp only [hcall, Bool.false_eq_true, if_false]
      constructor
      · rw [List.flatMap_cons, hbytes, List.sum_cons, ← List.drop_drop, ← List.take_add]
      · intro f hf
        rcases List.mem_cons.mp hf with rfl | hf
        · rfl
        · exact hflags f hf

/-- A body that the frames come to the end of: the last of them has the flag, and its last
bytes. -/
theorem dataFrames_complete {body : Bytes} {off : ℕ} {lengths : List ℕ} (hoff : off < body.length)
    (hpos : ∀ n ∈ lengths, 0 < n) (h : body.length ≤ off + lengths.sum) :
    ∃ front last, dataFrames body off lengths = front ++ [(last, true)] ∧ last ≠ [] ∧
      (∀ f ∈ front, f.2 = false) ∧ front.flatMap Prod.fst ++ last = body.drop off := by
  induction lengths generalizing off with
  | nil =>
      rw [List.sum_nil] at h
      omega
  | cons n lengths ih =>
      have hn : 0 < n := hpos n List.mem_cons_self
      rw [List.sum_cons] at h
      unfold dataFrames
      by_cases hend : body.length ≤ off + n
      · have hcall : responseDataCallback body off n =
            (body.drop off, true, body.length) := by
          unfold responseDataCallback
          have hmin : min (body.length - off) n = body.length - off := by omega
          simp only [hmin]
          rw [if_neg (by omega), List.take_of_length_le (by rw [List.length_drop]),
            show off + (body.length - off) = body.length by omega, decide_eq_true rfl]
        refine ⟨[], body.drop off, ?_, ?_, fun f hf => absurd hf List.not_mem_nil, rfl⟩
        · rw [hcall]
          rfl
        · intro hnil
          have := congrArg List.length hnil
          rw [List.length_drop, List.length_nil] at this
          omega
      · have hcall : responseDataCallback body off n =
            ((body.drop off).take n, false, off + n) := by
          unfold responseDataCallback
          have hmin : min (body.length - off) n = n := by omega
          simp only [hmin]
          rw [if_neg (by omega), decide_eq_false (by omega)]
        obtain ⟨front, last, hframes, hlast, hflags, hbytes⟩ := @ih (off + n) (by omega)
          (fun m hm => hpos m (List.mem_cons_of_mem n hm)) (by omega)
        refine ⟨((body.drop off).take n, false) :: front, last, ?_, hlast, ?_, ?_⟩
        · rw [hcall]
          simp only [Bool.false_eq_true, if_false]
          rw [hframes]
          rfl
        · intro f hf
          rcases List.mem_cons.mp hf with rfl | hf
          · rfl
          · exact hflags f hf
        · rw [List.flatMap_cons, List.append_assoc, hbytes, ← List.drop_drop,
            List.take_append_drop]

end Rpsiod
