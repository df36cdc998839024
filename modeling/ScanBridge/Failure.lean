import ScanBridge.Event
import ScanBridge.Text.Hexadecimal

namespace ScanBridge

mutual

/-- Why a scan fails. Whatever a callback fails with, the scan that it served reports it as a failed
callback. -/
inductive BridgeError
  | callback (why : Failure)
  | panicked (event : EventKind)
  | missingEventData (event : EventKind)
  | engine (code : Int32)
  | unroutable (token : UInt64)
  | closed
  deriving DecidableEq, Repr

/-- Why a callback fails: a plain message or the failure of a scan that it ran itself, with any
number of explanations laid around it. -/
inductive Failure
  | message (text : String)
  | bridge (error : BridgeError)
  | context (text : String) (why : Failure)
  deriving DecidableEq, Repr

end

mutual

/-- The text of an error. A failed callback gives the texts of its whole failure, from the outermost
inward. -/
def BridgeError.message : BridgeError → String
  | .callback why => "scan callback failed: " ++ ": ".intercalate why.chain
  | .panicked event => "scan callback panicked while handling " ++ event.name
  | .missingEventData event => "engine sent " ++ event.name ++ " without event data"
  | .engine code => "scan engine failed with status " ++ toString code.toInt
  | .unroutable token => "no callback registered for token 0x" ++ Text.hexDigits token.toNat
  | .closed => "callback bundle is closed"

/-- The texts of a failure, the outermost first. The failure of an inner scan is one text: it does
not give away what it was caused by. -/
def Failure.chain : Failure → List String
  | .message text => [text]
  | .bridge error => [error.message]
  | .context text why => text :: why.chain

end

namespace Failure

/-- The failure of an inner scan that lies below any explanations. -/
def inner? : Failure → Option BridgeError
  | .message _ => none
  | .bridge error => some error
  | .context _ why => why.inner?

def ofChain : List String → Failure
  | [] => .message ""
  | [text] => .message text
  | text :: t :: ts => .context text (ofChain (t :: ts))

def within : Option String → Failure → Failure
  | none, why => why
  | some text, why => .context text why

end Failure

end ScanBridge
