/-
# Muxly.Bridge.Http -- requests and responses over one connection

The bridge writes each message as a head of lines and a body whose length the head gives, and reads
them back from one buffered reader. The lines are looked for in the bytes, under the cap of a line,
and decoded one by one; the body is taken by its length, so it may look like anything.

What is written is read back, and the reader then stands exactly behind it (`readHttpRequest_write`,
`readHttpResponse_write`). The exception is the largest cap, at which no line can be read at all.
-/
import Muxly.Bridge.Lines
import Muxly.Core.Names
import Muxly.Data.Utf8

namespace Muxly.Bridge

open Muxly.Core Muxly.Data
open Muxly.Control (ok_bind bind_eq_ok)

/-! ## Errors -/

/-- What stops a reader of HTTP messages. -/
inductive HttpError where
  | reading (error : ReadError)
  /-- `HTTP line is not valid UTF-8`. -/
  | invalidUtf8
  /-- `missing HTTP method`. -/
  | missingMethod
  /-- `missing HTTP path`. -/
  | missingPath
  /-- `missing HTTP version`. -/
  | missingVersion
  /-- `unsupported HTTP request line: {request_line}`. -/
  | unsupportedRequestLine (requestLine : List Char)
  /-- `unexpected EOF while reading HTTP headers`. -/
  | headersEnd
  /-- `unexpected EOF while reading HTTP response`. -/
  | responseEnd
  /-- `unexpected EOF while reading HTTP response headers`. -/
  | responseHeadersEnd
  /-- `unexpected HTTP status line: {}`. -/
  | unexpectedStatusLine (statusLine : List Char)
  /-- `invalid Content-Length`. -/
  | invalidContentLength
  /-- `HTTP body exceeds buffered bridge cap of {} bytes`. -/
  | bodyExceedsCap (maxMessageBytes : UInt64)
  /-- `missing Content-Length`. -/
  | missingContentLength
  /-- The end of the stream, where `read_exact` wants more. -/
  | bodyEnd
  deriving DecidableEq

/-! ## Writers -/

/-- The end of a line of a head. -/
def crlf : List Char := "\r\n".toList

/-- The head of the request that `write_http_request` formats, line by line. -/
def requestLines (path host : List Char) (length : Nat) : List (List Char) :=
  ["POST ".toList ++ path ++ " HTTP/1.1".toList,
    "Host: ".toList ++ host,
    "Connection: keep-alive".toList,
    "Content-Type: application/json".toList,
    "Content-Length: ".toList ++ Nat.toDigits 10 length,
    []].map (· ++ crlf)

/-- `write_http_request`. -/
def writeHttpRequest (path host : List Char) (body : Bytes) : Bytes :=
  encodeUtf8 (requestLines path host body.length).flatten ++ body

/-- The head of the response that `write_http_response` formats, line by line. -/
def responseLines (length : Nat) : List (List Char) :=
  ["HTTP/1.1 200 OK".toList,
    "Connection: keep-alive".toList,
    "Content-Type: application/json".toList,
    "Content-Length: ".toList ++ Nat.toDigits 10 length,
    []].map (· ++ crlf)

/-- `write_http_response`. -/
def writeHttpResponse (body : Bytes) : Bytes :=
  encodeUtf8 (responseLines body.length).flatten ++ body

/-! ## Readers -/

/-- The digits of `str::parse::<usize>`, from the left. -/
def parseUsizeDigits : Nat → List Char → Option Nat
  | value, [] => some value
  | value, c :: rest =>
    if c.isDigit ∧ 10 * value + (c.toNat - '0'.toNat) < u64Limit then
      parseUsizeDigits (10 * value + (c.toNat - '0'.toNat)) rest
    else none

/-- `str::parse::<usize>`. -/
def parseUsize (text : List Char) : Option Nat :=
  match text with
  | '+' :: c :: rest => parseUsizeDigits 0 (c :: rest)
  | c :: rest => parseUsizeDigits 0 (c :: rest)
  | [] => none

/-- `parse_content_length`. -/
def parseContentLength (value : List Char) (maxMessageBytes : UInt64) : Except HttpError Nat :=
  match parseUsize value with
  | some contentLength =>
    if maxMessageBytes.toNat < contentLength then .error (.bodyExceedsCap maxMessageBytes)
    else .ok contentLength
  | none => .error .invalidContentLength

/-- `str::eq_ignore_ascii_case`. -/
def eqIgnoreAsciiCase (text other : List Char) : Bool :=
  text.map Char.toLower = other.map Char.toLower

/-- What a header line does to `content_length`. -/
def headerLength (maxMessageBytes : UInt64) (contentLength : Option Nat) (line : List Char) :
    Except HttpError (Option Nat) :=
  match cut ':' line with
  | some (name, value) =>
    if eqIgnoreAsciiCase name "content-length".toList then
      (parseContentLength (trim value) maxMessageBytes).map some
    else .ok contentLength
  | none => .ok contentLength

section Readers

variable (overflowChecks : Bool) (maxMessageBytes : UInt64)

/-- `read_http_line`. -/
def readHttpLine (reader : Bytes) : Except HttpError (Option (List Char) × Bytes) :=
  match readLineMessageWithCap overflowChecks maxMessageBytes reader with
  | .error error => .error (.reading error)
  | .ok (line, rest) =>
    if line.length = 0 then .ok (none, rest)
    else
      match decodeUtf8 line with
      | some text => .ok (some text, rest)
      | none => .error .invalidUtf8

variable {overflowChecks maxMessageBytes}

/-- A line takes at least one byte out of the reader. -/
theorem length_lt_of_readHttpLine {reader rest : Bytes} {line : List Char}
    (h : readHttpLine overflowChecks maxMessageBytes reader = .ok (some line, rest)) :
    rest.length < reader.length := by
  rw [readHttpLine] at h
  split at h
  · cases h
  · rename_i buffer rest' hread
    rw [← append_of_readLineMessageWithCap hread, List.length_append]
    split at h
    · cases h
    · split at h
      · cases h
        omega
      · cases h

variable (overflowChecks maxMessageBytes)

/-- The loop of `read_http_request` that skips empty lines before the request line. -/
def readRequestLine (reader : Bytes) : Except HttpError (Option (List Char) × Bytes) :=
  match h : readHttpLine overflowChecks maxMessageBytes reader with
  | .error error => .error error
  | .ok (none, rest) => .ok (none, rest)
  | .ok (some line, rest) =>
    have := length_lt_of_readHttpLine h
    if line = crlf then readRequestLine rest else .ok (some line, rest)
termination_by reader.length

/-- The header loop, up to the empty line. -/
def readHeaders (endError : HttpError) (contentLength : Option Nat) (reader : Bytes) :
    Except HttpError (Option Nat × Bytes) :=
  match h : readHttpLine overflowChecks maxMessageBytes reader with
  | .error error => .error error
  | .ok (none, _) => .error endError
  | .ok (some line, rest) =>
    have := length_lt_of_readHttpLine h
    if line = crlf then .ok (contentLength, rest)
    else
      match headerLength maxMessageBytes contentLength line with
      | .error error => .error error
      | .ok contentLength => readHeaders endError contentLength rest
termination_by reader.length

/-- The body: `read_exact` of as many bytes as the head gives. -/
def readBody (contentLength : Option Nat) (reader : Bytes) : Except HttpError (Bytes × Bytes) :=
  match contentLength with
  | none => .error .missingContentLength
  | some contentLength =>
    if reader.length < contentLength then .error .bodyEnd
    else .ok (reader.take contentLength, reader.drop contentLength)

/-- `HttpRequest`. -/
structure HttpRequest where
  path : List Char
  body : Bytes
  deriving DecidableEq

/-- The method, the path and the version of a request line, checked. -/
def parseRequestLine (requestLine : List Char) : Except HttpError (List Char) :=
  match splitWhitespace (trimEnd requestLine) with
  | [] => .error .missingMethod
  | [_] => .error .missingPath
  | [_, _] => .error .missingVersion
  | method :: path :: version :: _ =>
    if method ≠ "POST".toList ∨ ¬"HTTP/1.1".toList.isPrefixOf version then
      .error (.unsupportedRequestLine requestLine)
    else .ok path

/-- `read_http_request`. -/
def readHttpRequest (reader : Bytes) : Except HttpError (Option HttpRequest × Bytes) :=
  match readRequestLine overflowChecks maxMessageBytes reader with
  | .error error => .error error
  | .ok (none, rest) => .ok (none, rest)
  | .ok (some requestLine, rest) => do
    let path ← parseRequestLine requestLine
    let (contentLength, rest) ←
      readHeaders overflowChecks maxMessageBytes .headersEnd none rest
    let (body, rest) ← readBody contentLength rest
    return (some { path, body }, rest)

/-- `read_http_response`. -/
def readHttpResponse (reader : Bytes) : Except HttpError (Bytes × Bytes) :=
  match readHttpLine overflowChecks maxMessageBytes reader with
  | .error error => .error error
  | .ok (none, _) => .error .responseEnd
  | .ok (some statusLine, rest) =>
    if ¬"HTTP/1.1 200".toList.isPrefixOf statusLine then
      .error (.unexpectedStatusLine (trimEnd statusLine))
    else do
      let (contentLength, rest) ←
        readHeaders overflowChecks maxMessageBytes .responseHeadersEnd none rest
      readBody contentLength rest

end Readers

/-- `calls` calls of a reader, up to the first error. -/
def readMany {α : Type} (read : Bytes → Except HttpError (α × Bytes)) :
    Nat → Bytes → Except HttpError (List α × Bytes)
  | 0, reader => .ok ([], reader)
  | calls + 1, reader => do
    let (value, rest) ← read reader
    let (values, rest) ← readMany read calls rest
    return (value :: values, rest)

/-! ## Lines that are written are read -/

variable {overflowChecks : Bool} {cap : UInt64} {text path host : List Char}
  {texts : List (List Char)} {rest : Bytes}

theorem encodeUtf8_crlf : encodeUtf8 crlf = [carriageReturn] ++ [newline] := by
  decide +kernel

/-- A line of a head is read as it is written. -/
theorem readHttpLine_crlf (overflowChecks : Bool) (rest : Bytes)
    (hcap : cap.toNat + 1 < u64Limit) (htext : '\n' ∉ text)
    (hfits : (encodeUtf8 (text ++ crlf)).length ≤ cap.toNat) :
    readHttpLine overflowChecks cap (encodeUtf8 (text ++ crlf) ++ rest) =
      .ok (some (text ++ crlf), rest) := by
  have hencode : encodeUtf8 (text ++ crlf) = (encodeUtf8 text ++ [carriageReturn]) ++ [newline] := by
    rw [encodeUtf8_append, encodeUtf8_crlf, List.append_assoc]
  have hquiet : newline ∉ encodeUtf8 text ++ [carriageReturn] := by
    rw [List.mem_append, not_or]
    exact ⟨fun hmem => htext (mem_of_mem_encodeUtf8 (by decide) hmem), by decide⟩
  have hshort : (encodeUtf8 text ++ [carriageReturn]).length < cap.toNat := by
    rw [hencode, List.length_append, List.length_singleton] at hfits
    omega
  have hread : readLineMessageWithCap overflowChecks cap (encodeUtf8 (text ++ crlf) ++ rest) =
      .ok (encodeUtf8 (text ++ crlf), rest) := by
    rw [hencode, List.append_assoc, List.singleton_append,
      readLineMessageWithCap_line hcap hquiet hshort]
  rw [readHttpLine, hread]
  dsimp only
  rw [if_neg (by simp [hencode]), decodeUtf8_encodeUtf8]

theorem readHttpLine_nil (hcap : cap.toNat + 1 < u64Limit) :
    readHttpLine overflowChecks cap [] = .ok (none, []) := by
  rw [readHttpLine, readLineMessageWithCap_rest hcap (Nat.zero_le _) List.not_mem_nil]
  rfl

section Loops

variable {line : List Char} {reader : Bytes} {endError : HttpError}
  {contentLength contentLength' : Option Nat}

theorem readRequestLine_of_line (hne : line ≠ crlf)
    (h : readHttpLine overflowChecks cap reader = .ok (some line, rest)) :
    readRequestLine overflowChecks cap reader = .ok (some line, rest) := by
  rw [readRequestLine]
  split
  all_goals
    rename_i heq
    rw [h] at heq
    cases heq
  rw [if_neg hne]

theorem readRequestLine_of_end (h : readHttpLine overflowChecks cap reader = .ok (none, rest)) :
    readRequestLine overflowChecks cap reader = .ok (none, rest) := by
  rw [readRequestLine]
  split
  all_goals
    rename_i heq
    rw [h] at heq
    cases heq
  rfl

theorem readRequestLine_of_error {error : HttpError}
    (h : readHttpLine overflowChecks cap reader = .error error) :
    readRequestLine overflowChecks cap reader = .error error := by
  rw [readRequestLine]
  split
  all_goals
    rename_i heq
    rw [h] at heq
    cases heq
  rfl

theorem readHeaders_of_line (hne : line ≠ crlf)
    (h : readHttpLine overflowChecks cap reader = .ok (some line, rest))
    (hlength : headerLength cap contentLength line = .ok contentLength') :
    readHeaders overflowChecks cap endError contentLength reader =
      readHeaders overflowChecks cap endError contentLength' rest := by
  rw [readHeaders]
  split
  all_goals
    rename_i heq
    rw [h] at heq
    cases heq
  rw [if_neg hne, hlength]

theorem readHeaders_of_crlf (h : readHttpLine overflowChecks cap reader = .ok (some crlf, rest)) :
    readHeaders overflowChecks cap endError contentLength reader = .ok (contentLength, rest) := by
  rw [readHeaders]
  split
  all_goals
    rename_i heq
    rw [h] at heq
    cases heq
  rw [if_pos rfl]

/-- The header loop reads the lines up to the empty one. -/
theorem readHeaders_lines (hcap : cap.toNat + 1 < u64Limit)
    (htexts : ∀ text ∈ texts, '\n' ∉ text ∧ text ≠ [])
    (hfits : ∀ line ∈ (texts ++ [[]]).map (· ++ crlf), (encodeUtf8 line).length ≤ cap.toNat)
    (hlength : (texts.map (· ++ crlf)).foldlM (headerLength cap) contentLength = .ok contentLength') :
    readHeaders overflowChecks cap endError contentLength
      (encodeUtf8 ((texts ++ [[]]).map (· ++ crlf)).flatten ++ rest) = .ok (contentLength', rest) := by
  induction texts generalizing contentLength with
  | nil =>
      cases hlength
      have hread := readHttpLine_crlf overflowChecks rest hcap List.not_mem_nil
        (hfits ([] ++ crlf) (by simp))
      exact readHeaders_of_crlf (by simpa using hread)
  | cons text texts ih =>
      rw [List.map_cons, List.foldlM_cons] at hlength
      obtain ⟨contentLength₁, hfirst, hmore⟩ := bind_eq_ok.mp hlength
      obtain ⟨⟨hquiet, hne⟩, hothers⟩ := List.forall_mem_cons.mp htexts
      rw [List.cons_append, List.map_cons] at hfits ⊢
      obtain ⟨hshort, hfits⟩ := List.forall_mem_cons.mp hfits
      have hread := readHttpLine_crlf overflowChecks
        (encodeUtf8 ((texts ++ [[]]).map (· ++ crlf)).flatten ++ rest) hcap hquiet hshort
      rw [List.flatten_cons, encodeUtf8_append, List.append_assoc,
        readHeaders_of_line (by simpa using hne) hread hfirst, ih hothers hfits hmore]

end Loops

/-! ## The length of the body -/

theorem parseUsizeDigits_digits {digits : List Char} (hdigits : ∀ c ∈ digits, c.isDigit)
    {value : Nat} (hfits : Nat.ofDigitChars 10 digits value < u64Limit) :
    parseUsizeDigits value digits = some (Nat.ofDigitChars 10 digits value) := by
  induction digits generalizing value with
  | nil => simp [parseUsizeDigits]
  | cons c rest ih =>
      obtain ⟨hc, hrest⟩ := List.forall_mem_cons.mp hdigits
      rw [Nat.ofDigitChars_cons] at hfits ⊢
      have hle := le_ofDigitChars rest (10 * value + (c.toNat - '0'.toNat))
      rw [parseUsizeDigits, if_pos ⟨hc, lt_of_le_of_lt hle hfits⟩, ih hrest hfits]

theorem parseUsize_toDigits {n : Nat} (h : n < u64Limit) :
    parseUsize (Nat.toDigits 10 n) = some n := by
  have hdigits := decimal_digits n
  have hread : parseUsizeDigits 0 (Nat.toDigits 10 n) = some n := by
    rw [parseUsizeDigits_digits hdigits (by rwa [Nat.ofDigitChars_ten_toDigits]),
      Nat.ofDigitChars_ten_toDigits]
  rw [parseUsize.eq_def]
  split
  · rename_i c rest heq
    exact absurd (hdigits '+' (heq ▸ List.mem_cons_self ..)) (by decide)
  · rename_i c rest _ heq
    rwa [heq] at hread
  · rename_i heq
    exact absurd heq Nat.toDigits_ne_nil

theorem isWhiteSpace_of_isDigit {c : Char} (h : c.isDigit) : isWhiteSpace c = false := by
  have hrange : 48 ≤ c.toNat ∧ c.toNat ≤ 57 := by
    simp only [Char.isDigit, Bool.and_eq_true, decide_eq_true_eq] at h
    exact ⟨UInt32.le_iff_toNat_le.mp h.1, UInt32.le_iff_toNat_le.mp h.2⟩
  simp only [isWhiteSpace, Bool.or_eq_false_iff, Bool.and_eq_false_iff, decide_eq_false_iff_not]
  omega

/-- A field with its value. The texts stay variables here, so that none of them is compared with
another character by character. -/
theorem field_eq {start : List Char} (name middle : List Char) (hstart : start = name ++ [':', ' ']) :
    start ++ middle ++ crlf = name ++ ':' :: ([' '] ++ (middle ++ crlf)) := by
  subst hstart
  simp

/-- A field of another name leaves the length alone. -/
theorem headerLength_field {start name : List Char} (middle : List Char)
    (contentLength : Option Nat) (hstart : start = name ++ [':', ' ']) (hname : ':' ∉ name)
    (hne : eqIgnoreAsciiCase name "content-length".toList = false) :
    headerLength cap contentLength (start ++ middle ++ crlf) = .ok contentLength := by
  rw [headerLength, field_eq name middle hstart, cut_append hname]
  dsimp only
  rw [if_neg (by rw [hne]; exact Bool.false_ne_true)]

/-- The length that is written is the length that is read. -/
theorem headerLength_length {n : Nat} (hn : n ≤ cap.toNat) (contentLength : Option Nat) :
    headerLength cap contentLength ("Content-Length: ".toList ++ Nat.toDigits 10 n ++ crlf) =
      .ok (some n) := by
  have hstart : "Content-Length: ".toList = "Content-Length".toList ++ [':', ' '] := by
    simp
  have hname : ':' ∉ "Content-Length".toList := by simp
  have htrim : trim ([' '] ++ (Nat.toDigits 10 n ++ crlf)) = Nat.toDigits 10 n :=
    trim_append Nat.toDigits_ne_nil (fun c hc => isWhiteSpace_of_isDigit (decimal_digits n c hc))
      (by simp [isWhiteSpace]) (by simp [crlf, isWhiteSpace])
  have hparse : parseUsize (Nat.toDigits 10 n) = some n :=
    parseUsize_toDigits (lt_of_le_of_lt hn cap.toNat_lt)
  rw [headerLength, field_eq _ _ hstart, cut_append hname]
  dsimp only
  rw [if_pos (by simp [eqIgnoreAsciiCase]), htrim, parseContentLength, hparse]
  dsimp only
  rw [if_neg (Nat.not_lt.mpr hn)]
  rfl

theorem newline_notMem_toDigits (n : Nat) : '\n' ∉ Nat.toDigits 10 n := fun h =>
  absurd (decimal_digits n _ h) (by decide)

/-- The fields that requests and responses share. -/
def commonTexts (length : Nat) : List (List Char) :=
  ["Connection: keep-alive".toList,
    "Content-Type: application/json".toList,
    "Content-Length: ".toList ++ Nat.toDigits 10 length]

theorem commonTexts_lines (length : Nat) : ∀ text ∈ commonTexts length, '\n' ∉ text ∧ text ≠ [] := by
  have hlength : '\n' ∉ "Content-Length: ".toList ++ Nat.toDigits 10 length := by
    rw [List.mem_append, not_or]
    exact ⟨by simp, newline_notMem_toDigits length⟩
  intro text hmem
  simp only [commonTexts, List.mem_cons, List.not_mem_nil, or_false] at hmem
  rcases hmem with rfl | rfl | rfl
  · decide +kernel
  · decide +kernel
  · exact ⟨hlength, List.append_ne_nil_of_left_ne_nil (by simp) _⟩

theorem foldlM_commonTexts {n : Nat} (hn : n ≤ cap.toNat) :
    ((commonTexts n).map (· ++ crlf)).foldlM (headerLength cap) none = .ok (some n) := by
  have hconnection : headerLength cap none ("Connection: keep-alive".toList ++ crlf) = .ok none := by
    have hstart : "Connection: ".toList = "Connection".toList ++ [':', ' '] := by simp
    have htext : "Connection: keep-alive".toList = "Connection: ".toList ++ "keep-alive".toList := by
      simp
    rw [htext]
    exact headerLength_field _ none hstart (by simp) (by simp [eqIgnoreAsciiCase])
  have htype : headerLength cap none ("Content-Type: application/json".toList ++ crlf) = .ok none := by
    have hstart : "Content-Type: ".toList = "Content-Type".toList ++ [':', ' '] := by simp
    have htext : "Content-Type: application/json".toList =
        "Content-Type: ".toList ++ "application/json".toList := by
      simp
    rw [htext]
    exact headerLength_field _ none hstart (by simp) (by simp [eqIgnoreAsciiCase])
  have hlength := headerLength_length hn none
  simp only [commonTexts, List.map_cons, List.map_nil, List.foldlM_cons, List.foldlM_nil,
    hconnection, htype, hlength, ok_bind]
  rfl

theorem readBody_append (body rest : Bytes) :
    readBody (some body.length) (body ++ rest) = .ok (body, rest) := by
  rw [readBody, if_neg (by simp), List.take_left, List.drop_left]

/-! ## Responses -/

/-- The head of a response is within the cap. -/
def ResponseFits (cap : UInt64) (body : Bytes) : Prop :=
  (∀ line ∈ responseLines body.length, (encodeUtf8 line).length ≤ cap.toNat) ∧
    body.length ≤ cap.toNat

theorem readHttpResponse_write (hcap : cap.toNat + 1 < u64Limit) {body : Bytes}
    (hfits : ResponseFits cap body) :
    readHttpResponse overflowChecks cap (writeHttpResponse body ++ rest) = .ok (body, rest) := by
  have hlines : responseLines body.length = ("HTTP/1.1 200 OK".toList ++ crlf) ::
      (commonTexts body.length ++ [[]]).map (· ++ crlf) := rfl
  obtain ⟨hshort, hbody⟩ := hfits
  rw [hlines] at hshort
  obtain ⟨hfirst, hothers⟩ := List.forall_mem_cons.mp hshort
  have hread := readHttpLine_crlf overflowChecks
    (encodeUtf8 ((commonTexts body.length ++ [[]]).map (· ++ crlf)).flatten ++ (body ++ rest))
    hcap (by simp) hfirst
  rw [readHttpResponse, writeHttpResponse, hlines, List.flatten_cons, encodeUtf8_append,
    List.append_assoc, List.append_assoc, hread]
  dsimp only
  rw [if_neg (by simp),
    readHeaders_lines hcap (commonTexts_lines _) hothers (foldlM_commonTexts hbody), ok_bind]
  exact readBody_append body rest

/-! ## Requests -/

/-- What a request is written from: a path of one word, a host in one line, and any body. -/
structure OutgoingRequest where
  path : List Char
  host : List Char
  body : Bytes
  path_ne_nil : path ≠ []
  path_word : ∀ c ∈ path, isWhiteSpace c = false
  host_line : '\n' ∉ host

namespace OutgoingRequest

/-- What `write_http_request` writes. -/
def write (request : OutgoingRequest) : Bytes :=
  writeHttpRequest request.path request.host request.body

/-- What is to be read. -/
def toRequest (request : OutgoingRequest) : HttpRequest := ⟨request.path, request.body⟩

/-- The head and the body are within the cap. -/
def Fits (cap : UInt64) (request : OutgoingRequest) : Prop :=
  (∀ line ∈ requestLines request.path request.host request.body.length,
    (encodeUtf8 line).length ≤ cap.toNat) ∧ request.body.length ≤ cap.toNat

variable (request : OutgoingRequest)

theorem newline_notMem_path : '\n' ∉ request.path := fun hmem =>
  absurd (request.path_word _ hmem) (by decide)

/-- The text of the request line. -/
def requestText (request : OutgoingRequest) : List Char :=
  "POST ".toList ++ request.path ++ " HTTP/1.1".toList

/-- The line end goes: as for a field, the texts stay variables. -/
theorem trimEnd_words {start finish : List Char} (first last : List Char)
    (hstart : start = first ++ [' ']) (hfinish : finish = [' '] ++ last) (hne : last ≠ [])
    (hlast : ∀ c ∈ last, isWhiteSpace c = false) :
    trimEnd (start ++ text ++ finish ++ crlf) = first ++ ' ' :: (text ++ ' ' :: last) := by
  subst hstart hfinish
  have hend : trimEnd ((first ++ ' ' :: (text ++ [' '])) ++ (last ++ crlf)) =
      (first ++ ' ' :: (text ++ [' '])) ++ last :=
    trimEnd_append hne hlast (by simp [crlf, isWhiteSpace])
  simpa using hend

theorem parseRequestLine_write :
    parseRequestLine (request.requestText ++ crlf) = .ok request.path := by
  have hpost : "POST ".toList = "POST".toList ++ [' '] := by simp
  have hversion : " HTTP/1.1".toList = [' '] ++ "HTTP/1.1".toList := by simp
  have hplain : ∀ c ∈ "HTTP/1.1".toList, isWhiteSpace c = false := by simp [isWhiteSpace]
  have htrim : trimEnd (request.requestText ++ crlf) =
      "POST".toList ++ ' ' :: (request.path ++ ' ' :: "HTTP/1.1".toList) :=
    trimEnd_words _ _ hpost hversion (by simp) hplain
  have hwords : splitWhitespace
      ("POST".toList ++ ' ' :: (request.path ++ ' ' :: "HTTP/1.1".toList)) =
        ["POST".toList, request.path, "HTTP/1.1".toList] := by
    rw [splitWhitespace_cons (by simp) (by simp [isWhiteSpace]) (by decide),
      splitWhitespace_cons request.path_ne_nil request.path_word (by decide),
      splitWhitespace_word (by simp) hplain]
  rw [parseRequestLine, htrim, hwords]
  dsimp only
  rw [if_neg (by simp)]

theorem newline_notMem_requestText : '\n' ∉ request.requestText := by
  have hparts : ∀ start finish : List Char, '\n' ∉ start → '\n' ∉ finish →
      '\n' ∉ start ++ request.path ++ finish := by
    intro start finish hstart hfinish
    simp [hstart, hfinish, request.newline_notMem_path]
  exact hparts _ _ (by simp) (by simp)

theorem requestText_ne_nil : request.requestText ≠ [] :=
  List.append_ne_nil_of_left_ne_nil (List.append_ne_nil_of_left_ne_nil (by simp) _) _

theorem hostText_line : '\n' ∉ "Host: ".toList ++ request.host ∧
    "Host: ".toList ++ request.host ≠ [] := by
  rw [List.mem_append, not_or]
  exact ⟨⟨by simp, request.host_line⟩,
    List.append_ne_nil_of_left_ne_nil (by simp) _⟩

theorem headerLength_host :
    headerLength cap none ("Host: ".toList ++ request.host ++ crlf) = .ok none := by
  have hstart : "Host: ".toList = "Host".toList ++ [':', ' '] := by simp
  exact headerLength_field _ none hstart (by simp) (by simp [eqIgnoreAsciiCase])

theorem readHttpRequest_write (hcap : cap.toNat + 1 < u64Limit) (hfits : request.Fits cap) :
    readHttpRequest overflowChecks cap (request.write ++ rest) =
      .ok (some request.toRequest, rest) := by
  have hlines : requestLines request.path request.host request.body.length =
      (request.requestText ++ crlf) ::
        ((("Host: ".toList ++ request.host) :: commonTexts request.body.length) ++ [[]]).map
          (· ++ crlf) := rfl
  obtain ⟨hshort, hbody⟩ := hfits
  rw [hlines] at hshort
  obtain ⟨hfirst, hothers⟩ := List.forall_mem_cons.mp hshort
  have htexts : ∀ text ∈ ("Host: ".toList ++ request.host) :: commonTexts request.body.length,
      '\n' ∉ text ∧ text ≠ [] :=
    List.forall_mem_cons.mpr ⟨request.hostText_line, commonTexts_lines _⟩
  have hfold : ((("Host: ".toList ++ request.host) :: commonTexts request.body.length).map
      (· ++ crlf)).foldlM (headerLength cap) none = .ok (some request.body.length) := by
    rw [List.map_cons, List.foldlM_cons, request.headerLength_host, ok_bind,
      foldlM_commonTexts hbody]
  have hread := readHttpLine_crlf overflowChecks
    (encodeUtf8 ((("Host: ".toList ++ request.host) :: commonTexts request.body.length ++
      [[]]).map (· ++ crlf)).flatten ++ (request.body ++ rest))
    hcap request.newline_notMem_requestText hfirst
  rw [readHttpRequest, write, writeHttpRequest, hlines, List.flatten_cons, encodeUtf8_append,
    List.append_assoc, List.append_assoc,
    readRequestLine_of_line (by simpa using request.requestText_ne_nil) hread]
  dsimp only
  rw [request.parseRequestLine_write, ok_bind, readHeaders_lines hcap htexts hothers hfold, ok_bind]
  dsimp only
  rw [readBody_append, ok_bind]
  rfl

end OutgoingRequest

/-! ## Connections -/

/-- Messages that are each read back with what follows are read one after the other. -/
theorem readMany_append {α β : Type} (read : Bytes → Except HttpError (α × Bytes))
    (write : β → Bytes) (value : β → α) {messages : List β}
    (h : ∀ message ∈ messages, ∀ rest, read (write message ++ rest) = .ok (value message, rest))
    (calls : Nat) (rest : Bytes) :
    readMany read (messages.length + calls) (messages.flatMap write ++ rest) =
      (readMany read calls rest).map fun result => (messages.map value ++ result.1, result.2) := by
  induction messages with
  | nil =>
      rw [List.length_nil, Nat.zero_add, List.flatMap_nil, List.nil_append]
      cases readMany read calls rest <;> rfl
  | cons message messages ih =>
      obtain ⟨hfirst, hothers⟩ := List.forall_mem_cons.mp h
      rw [List.length_cons, Nat.add_right_comm, readMany, List.flatMap_cons, List.append_assoc,
        hfirst, ok_bind]
      dsimp only
      rw [ih hothers]
      cases readMany read calls rest <;> rfl

theorem readHttpRequest_nil (hcap : cap.toNat + 1 < u64Limit) :
    readHttpRequest overflowChecks cap [] = .ok (none, []) := by
  rw [readHttpRequest, readRequestLine_of_end (readHttpLine_nil hcap)]

theorem readMany_requests (hcap : cap.toNat + 1 < u64Limit) {requests : List OutgoingRequest}
    (hfits : ∀ request ∈ requests, request.Fits cap) :
    readMany (readHttpRequest overflowChecks cap) (requests.length + 1)
      (requests.flatMap OutgoingRequest.write) =
        .ok (requests.map (fun request => some request.toRequest) ++ [none], []) := by
  have hround := readMany_append (readHttpRequest overflowChecks cap) OutgoingRequest.write
    (fun request => some request.toRequest)
    (fun request hmem _ => request.readHttpRequest_write hcap (hfits request hmem)) 1 []
  have hend : readMany (readHttpRequest overflowChecks cap) 1 [] = .ok ([none], []) := by
    rw [readMany, readHttpRequest_nil hcap]
    rfl
  rwa [List.append_nil, hend] at hround

theorem readMany_responses (hcap : cap.toNat + 1 < u64Limit) {responses : List Bytes}
    (hfits : ∀ body ∈ responses, ResponseFits cap body) :
    readMany (readHttpResponse overflowChecks cap) responses.length
      (responses.flatMap writeHttpResponse) = .ok (responses, []) := by
  have hround := readMany_append (readHttpResponse overflowChecks cap) writeHttpResponse id
    (fun body hmem _ => readHttpResponse_write hcap (hfits body hmem)) 0 []
  rw [List.append_nil, Nat.add_zero, readMany, List.map_id] at hround
  rw [hround]
  exact congrArg (fun bodies => Except.ok (bodies, [])) (List.append_nil responses)

/-- At the largest cap no request is seen, or the build stops the reader. -/
theorem readHttpRequest_of_overflow (hcap : cap.toNat + 1 = u64Limit) (reader : Bytes) :
    readHttpRequest overflowChecks cap reader =
      if overflowChecks then .error (.reading .addOverflow) else .ok (none, reader) := by
  have hread : readHttpLine overflowChecks cap reader =
      if overflowChecks then .error (.reading .addOverflow) else .ok (none, reader) := by
    rw [readHttpLine, readLineMessageWithCap_of_overflow hcap]
    cases overflowChecks <;> rfl
  cases overflowChecks with
  | true => rw [readHttpRequest, readRequestLine_of_error hread]; rfl
  | false => rw [readHttpRequest, readRequestLine_of_end hread]; rfl

theorem readMany_requests_of_overflow (hcap : cap.toNat + 1 = u64Limit) (calls : Nat)
    (reader : Bytes) :
    readMany (readHttpRequest overflowChecks cap) (calls + 1) reader =
      if overflowChecks then .error (.reading .addOverflow)
      else .ok (List.replicate (calls + 1) none, reader) := by
  induction calls with
  | zero =>
      rw [readMany, readHttpRequest_of_overflow hcap]
      cases overflowChecks <;> rfl
  | succ calls ih =>
      rw [readMany, readHttpRequest_of_overflow hcap]
      cases overflowChecks with
      | true => rfl
      | false =>
          rw [if_neg Bool.false_ne_true, ok_bind]
          dsimp only
          rw [ih]
          rfl

/-- At the largest cap no response is read. -/
theorem readMany_responses_of_overflow (overflowChecks : Bool) (hcap : cap.toNat + 1 = u64Limit)
    (calls : Nat) (reader : Bytes) :
    ∃ error, readMany (readHttpResponse overflowChecks cap) (calls + 1) reader = .error error := by
  rw [readMany, readHttpResponse, readHttpLine, readLineMessageWithCap_of_overflow hcap]
  cases overflowChecks
  · exact ⟨_, rfl⟩
  · exact ⟨_, rfl⟩

/-- The messages on a connection are read as they were written, and then the end of the stream is
found, exactly when one more than the cap is still a `usize`. Otherwise only a stream without
messages is read well: one of requests if the build lets the sum wrap, one of responses because
nothing is read at all. -/
theorem connection_round_trip_iff (overflowChecks : Bool) (cap : UInt64)
    (requests : List OutgoingRequest) (responses : List Bytes)
    (hrequests : ∀ request ∈ requests, request.Fits cap)
    (hresponses : ∀ body ∈ responses, ResponseFits cap body) :
    (readMany (readHttpRequest overflowChecks cap) (requests.length + 1)
        (requests.flatMap OutgoingRequest.write) =
          .ok (requests.map (fun request => some request.toRequest) ++ [none], []) ↔
      cap.toNat + 1 < u64Limit ∨ overflowChecks = false ∧ requests = []) ∧
    (readMany (readHttpResponse overflowChecks cap) responses.length
        (responses.flatMap writeHttpResponse) = .ok (responses, []) ↔
      cap.toNat + 1 < u64Limit ∨ responses = []) := by
  rcases Nat.lt_or_eq_of_le (show cap.toNat + 1 ≤ u64Limit from cap.toNat_lt) with hcap | hcap
  · exact ⟨⟨fun _ => .inl hcap, fun _ => readMany_requests hcap hrequests⟩, fun _ => .inl hcap,
      fun _ => readMany_responses hcap hresponses⟩
  · refine ⟨?_, ?_⟩
    · rw [readMany_requests_of_overflow hcap]
      constructor
      · intro h
        cases overflowChecks with
        | true => cases h
        | false =>
            cases requests with
            | nil => exact .inr ⟨rfl, rfl⟩
            | cons request requests => cases h
      · rintro (h | ⟨rfl, rfl⟩)
        · omega
        · rfl
    · cases responses with
      | nil => exact ⟨fun _ => .inr rfl, fun _ => rfl⟩
      | cons body responses =>
          obtain ⟨error, herror⟩ := readMany_responses_of_overflow overflowChecks hcap responses.length
            ((body :: responses).flatMap writeHttpResponse)
          rw [List.length_cons, herror]
          refine ⟨fun h => absurd h (by simp), ?_⟩
          rintro (h | h)
          · omega
          · cases h

/-- A request as a client of the bridge sends it. -/
def pingRequest : OutgoingRequest where
  path := "/rpc".toList
  host := "127.0.0.1:8080".toList
  body := ascii "Content-Length: 7"
  path_ne_nil := by decide +kernel
  path_word := by simp [isWhiteSpace]
  host_line := by decide +kernel

theorem pingRequest_fits (cap : UInt64) (h : 32 ≤ cap.toNat) : pingRequest.Fits cap := by
  have hlines : ∀ line ∈ requestLines pingRequest.path pingRequest.host pingRequest.body.length,
      (encodeUtf8 line).length ≤ 32 := by
    decide +kernel
  have hbody : pingRequest.body.length ≤ 32 := by decide +kernel
  exact ⟨fun line hmem => (hlines line hmem).trans h, hbody.trans h⟩

theorem connection_round_trip_iff_ping :
    readMany (readHttpRequest false 64) 3 (pingRequest.write ++ pingRequest.write) =
      .ok ([some pingRequest.toRequest, some pingRequest.toRequest, none], []) := by
  have hfits := pingRequest_fits 64 (by decide)
  have hround := (connection_round_trip_iff false 64 [pingRequest, pingRequest] []
    (by simp [hfits]) (by simp)).1.mpr (.inl (by decide))
  simpa using hround

/-- At the largest cap a request that the bridge has written is not seen. -/
theorem request_unseen_at_largest_cap :
    ¬∀ (cap : UInt64) (requests : List OutgoingRequest),
      (∀ request ∈ requests, request.Fits cap) →
        readMany (readHttpRequest false cap) (requests.length + 1)
          (requests.flatMap OutgoingRequest.write) =
            .ok (requests.map (fun request => some request.toRequest) ++ [none], []) := by
  intro h
  have hcap : (18446744073709551615 : UInt64).toNat + 1 = u64Limit := by decide
  have hread := h 18446744073709551615 [pingRequest]
    (by simp [pingRequest_fits 18446744073709551615 (by decide)])
  rw [readMany_requests_of_overflow hcap] at hread
  cases hread

end Muxly.Bridge
