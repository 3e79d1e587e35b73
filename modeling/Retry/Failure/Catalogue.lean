import Retry.Failure.Kind

/-!
# The catalogue of kinds

All kinds that can be named: those of the base language, those of the retry loop,
and three of an application, of which one descends from two others and one cannot
be put into words.
-/

namespace Retry.Kind

def connectionError : Kind := below "ConnectionError" [osError]
def timeoutError : Kind := below "TimeoutError" [osError]
def customError : Kind := (below "CustomError" [exception]).within "app"

def catalogue : List Kind :=
  [baseException, exception, below "KeyboardInterrupt" [baseException],
    below "SystemExit" [baseException], below "GeneratorExit" [baseException], cancelledError,
    arithmeticError, below "ZeroDivisionError" [arithmeticError], overflowError,
    lookupError, keyError, indexError,
    runtimeError, below "NotImplementedError" [runtimeError], recursionError,
    valueError, typeError, attributeError, below "AssertionError" [exception],
    stopIteration,
    osError, below "FileNotFoundError" [osError], below "PermissionError" [osError], timeoutError,
    connectionError, below "ConnectionResetError" [connectionError],
    below "ConnectionRefusedError" [connectionError], below "BrokenPipeError" [connectionError],
    customError, (below "CustomChildError" [customError, timeoutError]).within "app",
    ((below "BadStrError" [exception]).within "app").worded
      (.failing (runtimeError.raising "bad str")),
    retryError, retryExhaustedError, retryAbortedError, retryCancelledError]

def named? (name : String) : Option Kind := catalogue.find? (·.name == name)

end Retry.Kind
