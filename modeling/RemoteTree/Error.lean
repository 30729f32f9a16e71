import RemoteTree.Failure.Family
import RemoteTree.Failure.Graph
import RemoteTree.Http.Method
import RemoteTree.Http.Sendable
import RemoteTree.Json.Reader
import RemoteTree.Json.Writer
import RemoteTree.Url.Target

/-!
# What goes wrong

Every way in which an operation of the library ends without a result, each with what its message
tells.

* `Error`: the ways.
* `Error.family?`: the family of the library's own errors; the others come from a caller's argument,
  from the client or from the network, and come out as they are.
* `Error.kind`, `Error.cause?`, `Error.message`: what is seen of an error.
* `Value.asText`: the text that a value is, or the error that it is none.
-/

namespace RemoteTree

open Failure (Kind Family)

/-- What a text is needed for. -/
inductive TextUse where
  | startsWith | split | strip
deriving DecidableEq

/-- The name of a use. -/
def TextUse.name : TextUse → String
  | .startsWith => "startswith"
  | .split => "split"
  | .strip => "strip"

/-- What is said where bytes stand in the place of the text. -/
def TextUse.notBytes : TextUse → Text
  | .startsWith => "startswith first arg must be bytes or a tuple of bytes, not str"
  | .split | .strip => "a bytes-like object is required, not 'str'"

/-- A way in which an operation ends without a result. -/
inductive Error where
  /-- The configured timeout is no number. -/
  | timeoutNotNumber (shown : Text) (cause : Kind)
  /-- The configured timeout is negative. -/
  | timeoutNegative (seconds : Double)
  /-- The url of a reference cannot be taken apart. -/
  | unparsable (url : Text) (why : Url.Fault)
  /-- The url of a reference has no scheme or no host. -/
  | rootless (url : Text)
  /-- A value has no JSON form. -/
  | unwritable (typeName : String) (why : Json.WriteFault)
  /-- The answer is not JSON. -/
  | unreadable (why : Json.ReadFault)
  /-- The answer has not the shape that a conversion expects. -/
  | unconvertible (conversion said : Text) (why : Failure)
  /-- The answer to a creation names no child. -/
  | nameless (url shown : Text)
  /-- No response in time. -/
  | timedOut (method : Method) (url timeout said : Text) (cause : Failure)
  /-- No response for another reason. -/
  | unreached (method : Method) (url said : Text) (cause : Failure)
  /-- More redirects than are followed. -/
  | tooManyRedirects (hops : Nat)
  /-- A response with another status than success. -/
  | refused (status : Int) (body : Text) (headers : Headers)
  /-- The key to order by is no text or an empty one. -/
  | orderKey (shown : Text)
  /-- A limit is no integer or a negative one. -/
  | limit (shown : Text)
  /-- A bound is none. -/
  | bound (name : String)
  /-- A bound has no JSON form. -/
  | write (why : Json.WriteFault)
  /-- An integer has too many digits. -/
  | digits (fault : DigitFault)
  /-- A text cannot be encoded. -/
  | encoding (fault : EncodeFault)
  /-- The place of a redirect cannot be decoded. -/
  | decoding (fault : DecodeFault)
  /-- A url on the way of a request cannot be taken apart. -/
  | brokenUrl (fault : Url.Fault)
  /-- A timeout that cannot be compared with a number. -/
  | incomparable (typeName : String)
  /-- A timeout that is a truth value. -/
  | booleanTimeout
  /-- A number beyond the largest double. -/
  | hugeNumber
  /-- A text was needed, and bytes were given. -/
  | bytesForText (use : TextUse)
  /-- A text was needed, and something else was given. -/
  | notText (typeName : String) (use : TextUse)
  /-- The client takes no request to the url. -/
  | badTarget (url : Text) (why : Url.TargetFault)
  /-- The client takes no request with such a header. -/
  | badHeader (why : Headers.Fault)
  /-- The message of a failure has no end. -/
  | endless (shown : Failure.Shown)
  /-- A failure has no message, for it lacks a part that the message tells of. -/
  | partless (kind : Kind) (part : String)
  /-- A response without a status has no body that could be told. -/
  | bodiless
  /-- A chain of redirects has no end. -/
  | endlessChain
  /-- A failure that comes out as it is. -/
  | failure (f : Failure)
  /-- Nothing has the name. -/
  | unknown (name : Text)

namespace Error

/-- The family of an error of the library. -/
def family? : Error → Option Family
  | .timeoutNotNumber .. | .timeoutNegative _ => some .configuration
  | .unparsable .. | .rootless _ => some .malformedUrl
  | .unwritable .. | .unreadable _ | .unconvertible .. | .nameless .. => some .serialization
  | .timedOut .. => some .timeout
  | .unreached .. => some .transport
  | .tooManyRedirects _ => some .tooManyRedirects
  | .refused .. => some .remote
  | _ => none

/-- A wrong type. -/
def typeError : Kind := ⟨.system, "TypeError"⟩

/-- A wrong value. -/
def valueError : Kind := ⟨.system, "ValueError"⟩

/-- The kind of what keeps a value from being written. -/
def kindOfWriteFault : Json.WriteFault → Kind
  | .unsupported _ | .badKey _ => typeError
  | .circular | .digits _ => valueError

/-- The kind of what keeps a text from being read. -/
def kindOfReadFault : Json.ReadFault → Kind
  | .flaw .. => ⟨.json, "JSONDecodeError"⟩
  | .digits _ => valueError
  | .encoding _ => ⟨.system, "UnicodeDecodeError"⟩
  | .notText _ => typeError

/-- The kind of what keeps a header from being sent. -/
def kindOfHeaderFault : Headers.Fault → Kind
  | .badName _ | .badValue _ | .notText .. => ⟨.client, "InvalidHeader"⟩
  | .digits _ => valueError

/-- The kind of an error. -/
def kind (e : Error) : Kind :=
  match e.family?, e with
  | some f, _ => f.kind
  | none, .write f => kindOfWriteFault f
  | none, .encoding _ => ⟨.system, "UnicodeEncodeError"⟩
  | none, .decoding _ => ⟨.system, "UnicodeDecodeError"⟩
  | none, .incomparable _ | none, .bytesForText _ => typeError
  | none, .notText .. | none, .bodiless | none, .partless .. => ⟨.system, "AttributeError"⟩
  | none, .hugeNumber => ⟨.system, "OverflowError"⟩
  | none, .badTarget .. => ⟨.client, "InvalidURL"⟩
  | none, .badHeader f => kindOfHeaderFault f
  | none, .endless _ | none, .endlessChain => ⟨.system, "RecursionError"⟩
  | none, .failure f => f.kind
  | none, .unknown _ => ⟨.system, "unknown"⟩
  | none, _ => valueError

/-- The kind of what an error names as its cause. -/
def cause? : Error → Option Kind
  | .timeoutNotNumber _ cause => some cause
  | .unparsable .. => some valueError
  | .unwritable _ why => some (kindOfWriteFault why)
  | .unreadable why => some (kindOfReadFault why)
  | .unconvertible _ _ why => some why.kind
  | .timedOut _ _ _ _ cause | .unreached _ _ _ cause => some cause.kind
  | .failure f => f.cause?.map Failure.kind
  | _ => none

/-- The wording for something that lacks a part. -/
def lacking (typeName part : String) : Text :=
  "'" ++ Text.ofString typeName ++ "' object has no attribute '" ++ Text.ofString part ++ "'"

/-- The message of an error. -/
def message : Error → Text
  | .timeoutNotNumber shown _ => "timeout must be a number not " ++ shown
  | .timeoutNegative x => "timeout must not be negative " ++ x.text
  | .unparsable url why => "cannot parse " ++ url.quoted ++ ": " ++ why.message
  | .rootless url => "no scheme or host in " ++ url.quoted
  | .unwritable type why =>
    "could not encode " ++ Text.ofString type ++ " as json: " ++ why.message
  | .unreadable why => "could not decode response: " ++ why.message
  | .unconvertible conversion said _ =>
    "could not convert response with " ++ conversion ++ ": " ++ said
  | .nameless url shown => "no name in response to create at " ++ url ++ ": " ++ shown
  | .timedOut method url timeout said _ =>
    Text.ofString method.name ++ " " ++ url ++ " timed out (timeout=" ++ timeout ++ "s): " ++ said
  | .unreached method url said _ =>
    Text.ofString method.name ++ " " ++ url ++ " failed: " ++ said
  | .tooManyRedirects hops => Text.ofNat hops ++ " consecutive requests(redirects)"
  | .refused _ body _ => body
  | .orderKey shown => "order_by key must be a non-empty string not " ++ shown
  | .limit shown => "limit must be a non-negative integer not " ++ shown
  | .bound name => Text.ofString name ++ " value must not be None"
  | .write why => why.message
  | .digits f => f.message
  | .encoding f => f.message
  | .decoding f => f.message
  | .brokenUrl f => f.message
  | .incomparable type =>
    "'<=' not supported between instances of '" ++ Text.ofString type ++ "' and 'int'"
  | .booleanTimeout =>
    "Timeout cannot be a boolean value. It must be an int, float or None."
  | .hugeNumber => "int too large to convert to float"
  | .bytesForText use => use.notBytes
  | .notText type use => lacking type use.name
  | .badTarget url why => why.message url
  | .badHeader f => f.message
  | .endless .text => "maximum recursion depth exceeded while getting the str of an object"
  | .endless .literal =>
    "maximum recursion depth exceeded while getting the repr of an object"
  | .partless kind part => lacking kind.name part
  | .bodiless => lacking Value.none.typeName "decode"
  | .endlessChain => "maximum recursion depth exceeded"
  | .failure f => f.message.toOption.getD []
  | .unknown name => name

/-- What keeps a failure from having a text, as an error. -/
def ofPrintFault : Failure.PrintFault → Error
  | .digits f => .digits f
  | .endless shown => .endless shown
  | .partless kind part => .partless kind part

end Error

/-- The text that a value is, where one is needed. -/
def Value.asText (use : TextUse) : Value → Except Error Text
  | .text t => .ok t
  | .bytes _ => .error (.bytesForText use)
  | v => .error (.notText v.typeName use)

end RemoteTree
