import Ipvshttpd.StringTools

/-!
# Reading a request

The class `connection_handler` of `http_server.cpp` up to the call of `handle_post_request`: it takes
the length of the body from the headers and asks the connection for data until that much has arrived.
The connection answers a read by a callback, once.
-/

namespace Ipvshttpd

open CLib

/-- A header of a request. -/
structure RequestHeader where
  /-- Its name, in any letter case. -/
  name : Str
  /-- Its value. -/
  value : Str

/-- This object handles a single incoming connection. -/
structure ConnectionHandler where
  /-- The body as far as it has arrived. -/
  mRequestBody : Str
  /-- The outstanding reads: the value of `left_to_read` that is bound into each callback. -/
  reads : List (BitVec 64)
  /-- The bodies with which `handle_post_request` has been invoked. -/
  requests : List Str
  deriving DecidableEq

namespace ConnectionHandler

/-- The constructor. -/
def new : ConnectionHandler := ⟨[], [], []⟩

/-- Asks for the next chunk of the body. -/
def readChunk (h : ConnectionHandler) (leftToRead : BitVec 64) : ConnectionHandler :=
  { h with reads := h.reads ++ [leftToRead] }

/-- Handles the request, with the body that has arrived. -/
def handlePostRequest (h : ConnectionHandler) : ConnectionHandler :=
  { h with requests := h.requests ++ [h.mRequestBody] }

/-- Takes the data of a callback and reads on if there is more to come. -/
def handlePostRead (h : ConnectionHandler) (range : Str) (error : Bool)
    (size leftToRead : BitVec 64) : ConnectionHandler :=
  if error then h
  else
    let h := { h with mRequestBody := h.mRequestBody ++ range.take size.toNat }
    let remaining := leftToRead - size
    if 0 < remaining then h.readChunk remaining else h.handlePostRequest

end ConnectionHandler

/-- The content length that the headers declare, as an `int`: 0 without a header for it. -/
def contentLength : List RequestHeader → Int
  | [] => 0
  | it :: rest =>
    if strToLower it.name = lit "content-length" then atoi (cStr it.value) else contentLength rest

/-- Handles an incoming connection. The `int` is converted to a `size_t`. -/
def ConnectionHandler.start (headers : List RequestHeader) : ConnectionHandler :=
  new.readChunk (BitVec.ofInt 64 (contentLength headers))

/-- The first header for the content length, in any letter case. -/
def contentLengthHeader (headers : List RequestHeader) : Option RequestHeader :=
  headers.find? fun it => decide (strToLower it.name = lit "content-length")

/-- The first read is issued for the length that the headers give: for the number of a numeral that
    fits 63 bits, for nothing without a header and after a minus sign. -/
def TakenExactly (headers : List RequestHeader) : Prop :=
  (contentLengthHeader headers = none → (ConnectionHandler.start headers).reads = [0]) ∧
  ∀ h, contentLengthHeader headers = some h →
    (∀ n, IsNumeral h.value n → n < 2 ^ 63 →
      (ConnectionHandler.start headers).reads = [BitVec.ofNat 64 n]) ∧
    ∀ t, h.value = 45 :: t → (ConnectionHandler.start headers).reads = [0]

/-- The value of the header survives the conversion to an `int`: a numeral below 2^63 is one below
    2^31, and the digits after a minus sign are too many for a `long` or all lost. -/
def FitsInt (h : RequestHeader) : Prop :=
  (∀ n, IsNumeral h.value n → n < 2 ^ 63 → n < 2 ^ 31) ∧
  ∀ t, h.value = 45 :: t →
    2 ^ 63 ≤ digitsVal (t.takeWhile isdigit) ∨ 2 ^ 32 ∣ digitsVal (t.takeWhile isdigit)

/-- A callback of the connection: an error, or data whose length fits a `size_t`. -/
structure ReadCallback where
  /-- The callback reports an error. -/
  error : Bool
  /-- The data. -/
  range : Str
  /-- The length of the data fits a `size_t`. -/
  fits : range.length < 2 ^ 64

/-- The parameter `size` of a callback is the length of its range. -/
def ReadCallback.size (cb : ReadCallback) : BitVec 64 := BitVec.ofNat 64 cb.range.length

/-- The connection answers the oldest outstanding read; without one there is no callback. -/
def ConnectionHandler.deliver (h : ConnectionHandler) (cb : ReadCallback) : ConnectionHandler :=
  match h.reads with
  | [] => h
  | leftToRead :: reads =>
    ({ h with reads := reads }).handlePostRead cb.range cb.error cb.size leftToRead

/-- The handler after any callbacks. -/
def ConnectionHandler.run (h : ConnectionHandler) (cbs : List ReadCallback) : ConnectionHandler :=
  cbs.foldl deliver h

/-- A callback that answers the oldest outstanding read; `none` if no read is outstanding. -/
def ConnectionHandler.callback (h : ConnectionHandler) (cb : ReadCallback) :
    Option ConnectionHandler :=
  match h.reads with
  | [] => none
  | leftToRead :: reads =>
    some (({ h with reads := reads }).handlePostRead cb.range cb.error cb.size leftToRead)

/-- The handler after callbacks each of which answers an outstanding read. -/
def ConnectionHandler.callbacks : ConnectionHandler → List ReadCallback → Option ConnectionHandler
  | h, [] => some h
  | h, cb :: cbs => (h.callback cb).bind (callbacks · cbs)

/-! ## What the connection delivers -/

/-- What has been delivered. -/
def stream (cbs : List ReadCallback) : Str := cbs.flatMap ReadCallback.range

/-- The requests that are due after a sequence of callbacks if the declared length is `n`: one, with
    the first `n` bytes of the stream, from the first callback on after which that much has been
    delivered. -/
def dueRequests (n : Nat) (cbs : List ReadCallback) : List Str :=
  if cbs ≠ [] ∧ n ≤ (stream cbs).length then [(stream cbs).take n] else []

/-- The bytes of the callbacks without an error. -/
def received (cbs : List ReadCallback) : Str := stream (cbs.filter fun cb => !cb.error)

/-- The callback `cb` has no error, and after it the number of bytes received is `n` modulo 2^64. -/
def Completes (n : BitVec 64) (before : List ReadCallback) (cb : ReadCallback) : Prop :=
  cb.error = false ∧ BitVec.ofNat 64 (received (before ++ [cb])).length = n

/-- The state of a handler after the callbacks `cbs` that answered its reads, if the first of them
    was issued for `n` bytes. -/
structure ReadInvariant (n : BitVec 64) (cbs : List ReadCallback) (h : ConnectionHandler) :
    Prop where
  /-- At most one read is outstanding. -/
  oneRead : h.reads.length ≤ 1
  /-- The body is what has been received. -/
  body : h.mRequestBody = received cbs
  /-- What is left to read and what has been received add up to `n`, modulo 2^64. -/
  counter : ∀ left ∈ h.reads, left + BitVec.ofNat 64 h.mRequestBody.length = n
  /-- The request handler has been invoked with the body, once at most. -/
  invoked : h.requests = [] ∨ h.requests = [h.mRequestBody]
  /-- The request handler has been invoked exactly if the last callback completes the body. -/
  atCompletion : h.requests ≠ [] ↔ ∃ before cb, cbs = before ++ [cb] ∧ Completes n before cb
  /-- Nothing comes after the callback that completes the body. -/
  first : ∀ before cb after, cbs = before ++ cb :: after → Completes n before cb → after = []
  /-- After an error nothing happens any more. -/
  afterError : (∃ cb ∈ cbs, cb.error = true) → h.requests = [] ∧ h.reads = []
  /-- After the request no read is outstanding. -/
  afterRequest : h.requests ≠ [] → h.reads = []

/-- The callback that brings the stream to the declared length `n` brings it to no more than that. -/
def CutExactly (n : Nat) (cbs : List ReadCallback) : Prop :=
  ∀ before cb, before ++ [cb] <+: cbs → before = [] ∨ (stream before).length < n →
    n ≤ (stream (before ++ [cb])).length → (stream (before ++ [cb])).length = n

end Ipvshttpd
