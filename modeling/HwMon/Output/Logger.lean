import HwMon.Lib.Bytes

/-!
# The logger

`logger.c` and the backend of `console_logger.c`. The buffer of a call is a memory
with any content before the call; the formatted body is what the format and its
arguments come to, and its length is returned as it is.
-/

namespace HwMon
set_option autoImplicit false

/-- `LogLevel`, an `enum` that can have any value of `int`. -/
abbrev LogLevel := Int32

def logTrace : LogLevel := 0
def logDebug : LogLevel := 1
def logInfo : LogLevel := 2
def logWarning : LogLevel := 3
def logError : LogLevel := 4

def newline : UInt8 := 10

/-- `TRACE`, `DEBUG`, `INFO`, `WARNING`, `ERROR` and `UNKNOWN` -/
def levelName (level : LogLevel) : List UInt8 :=
  if level = logTrace then [84, 82, 65, 67, 69]
  else if level = logDebug then [68, 69, 66, 85, 71]
  else if level = logInfo then [73, 78, 70, 79]
  else if level = logWarning then [87, 65, 82, 78, 73, 78, 71]
  else if level = logError then [69, 82, 82, 79, 82]
  else [85, 78, 75, 78, 79, 87, 78]

/-- `[%s] ` -/
def levelTag (level : LogLevel) : List UInt8 := [91] ++ levelName level ++ [93, 32]

structure LogCall where
  level : LogLevel
  /-- What the format and the arguments come to; none if `vsnprintf` fails. -/
  body : Option (List UInt8)
  /-- What the stack holds where `buf` is. -/
  stack : Mem

def logBufferSize : Nat := 512

/-- `snprintf` and `vsnprintf`: the buffer afterwards and the result. -/
def snprintf (buf : Mem) (off size : Nat) (formatted : Option (List UInt8)) : Mem × Int :=
  match formatted with
  | none => (buf, -1) -- What a failed call leaves behind its offset is not looked at.
  | some text => (if size = 0 then buf else store buf off (text.take (size - 1) ++ [0]), text.length)

/-- The bytes that `log_write` passes on, if it comes to that. -/
def logMessage (call : LogCall) : Option (List UInt8) :=
  let (buf, prefixLen) := snprintf call.stack 0 logBufferSize (some (levelTag call.level))
  if prefixLen < 0 then none
  else
    let prefixLen := if prefixLen.toNat ≥ logBufferSize then logBufferSize - 1 else prefixLen.toNat
    let (buf, bodyLen) := snprintf buf prefixLen (logBufferSize - prefixLen) call.body
    let total :=
      if bodyLen > 0 then
        let total := prefixLen + bodyLen.toNat
        if total > logBufferSize - 1 then logBufferSize - 1 else total
      else prefixLen
    if total + 1 < logBufferSize then some (segment (store buf total [newline]) 0 (total + 1))
    else some (segment buf 0 total)

section Backends
variable {σ : Type}

/-- A backend over a state; none where `write` is NULL. -/
structure Logger (σ : Type) where
  write : Option (List UInt8 → σ → σ)

/-- `g_backend` and `g_min_level` -/
structure LoggerState (σ : Type) where
  backend : Option (Logger σ) := none
  minLevel : LogLevel := logInfo

def loggerSetBackend (backend : Option (Logger σ)) (g : LoggerState σ) : LoggerState σ :=
  { g with backend }

def loggerSetMinLevel (level : LogLevel) (g : LoggerState σ) : LoggerState σ :=
  { g with minLevel := level }

def logWrite (g : LoggerState σ) (call : LogCall) (out : σ) : σ :=
  match g.backend with
  | none => out
  | some backend =>
    match backend.write with
    | none => out
    | some write =>
      if call.level < g.minLevel then out
      else
        match logMessage call with
        | none => out
        | some message => write message out

def logWrites (g : LoggerState σ) (calls : List LogCall) (out : σ) : σ :=
  calls.foldl (fun out call => logWrite g call out) out

/-- A logger with a backend that writes. -/
def loggerTo (write : List UInt8 → σ → σ) (minLevel : LogLevel) : LoggerState σ :=
  loggerSetMinLevel minLevel (loggerSetBackend (some ⟨some write⟩) {})

end Backends

/-- `console_write`, with what `stdout` has got. -/
def consoleWrite (message stdout : List UInt8) : List UInt8 := stdout ++ message

def consoleLoggerCreate : Logger (List UInt8) := ⟨some consoleWrite⟩

/-- The messages that a backend is passed, in order. -/
def passed (minLevel : LogLevel) (calls : List LogCall) : List (List UInt8) :=
  logWrites (loggerTo (fun message messages => messages ++ [message]) minLevel) calls []

end HwMon
