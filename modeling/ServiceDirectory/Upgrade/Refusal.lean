/-!
# Refusals

Every reason for which an opening handshake is answered with 400, with the text that describes it.
-/

namespace ServiceDirectory.Upgrade

/-- What is wrong with the form of a request head. -/
inductive HeadFault where
  | notUtf8
  | emptyRequestLine
  /-- The request line does not have three words. -/
  | badRequestLine
  | headerWithoutColon
  | emptyHeaderName
  deriving DecidableEq, Repr

/-- The text that describes a fault. -/
def HeadFault.message : HeadFault → String
  | notUtf8 => "head is not valid UTF-8"
  | emptyRequestLine => "empty request line"
  | badRequestLine => "bad request line"
  | headerWithoutColon => "header line without colon"
  | emptyHeaderName => "empty header name"

/-- A reason not to upgrade a connection. -/
inductive Refusal where
  /-- The request head has more bytes than the limit. -/
  | headTooLarge (limit : Nat)
  | malformed (fault : HeadFault)
  | method (got : String)
  | httpVersion (got : String)
  /-- No `Upgrade` header lists `websocket`. -/
  | upgradeHeader
  /-- No `Connection` header lists `Upgrade`. -/
  | connectionHeader
  | missingKey
  /-- The key is not the base64 form of 16 bytes. -/
  | invalidKey
  | missingVersion
  | unsupportedVersion (got : String)
  deriving DecidableEq, Repr

/-- The text that describes a refusal. -/
def Refusal.message : Refusal → String
  | headTooLarge limit => s!"request head exceeds {limit} bytes"
  | malformed fault => "malformed request: " ++ fault.message
  | method got => "method must be GET, got " ++ got
  | httpVersion got => "HTTP version must be HTTP/1.1, got " ++ got
  | upgradeHeader => "missing or invalid Upgrade header"
  | connectionHeader => "missing or invalid Connection header"
  | missingKey => "missing Sec-WebSocket-Key header"
  | invalidKey => "Sec-WebSocket-Key is not a base64-encoded 16 byte nonce"
  | missingVersion => "missing Sec-WebSocket-Version header"
  | unsupportedVersion got => "unsupported Sec-WebSocket-Version " ++ got

end ServiceDirectory.Upgrade
