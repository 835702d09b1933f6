/-! Result codes and messages shared by every kernel interface. -/

namespace ObfuscationKernel.Core

inductive StatusCode
  | invalidArgument | noMemory | notFound | alreadyExists | busy | denied | unsupported
  | overflow | wouldBlock | fault | notInitialized | ioError | notDirectory | isDirectory | notEmpty
  | tooManySymlinks | nameTooLong | crossDevice | linkLimit | permission | badDescriptor
  | interrupted | processFileLimit | systemFileLimit | noProcess
  deriving DecidableEq, Repr

structure Status where
  code : StatusCode
  message : String
  deriving DecidableEq, Repr

namespace Status

def invalidArgument (message : String) : Status := ⟨.invalidArgument, message⟩
def noMemory (message : String) : Status := ⟨.noMemory, message⟩
def notFound (message : String) : Status := ⟨.notFound, message⟩
def alreadyExists (message : String) : Status := ⟨.alreadyExists, message⟩
def busy (message : String) : Status := ⟨.busy, message⟩
def denied (message : String) : Status := ⟨.denied, message⟩
def unsupported (message : String) : Status := ⟨.unsupported, message⟩
def overflow (message : String) : Status := ⟨.overflow, message⟩
def wouldBlock (message : String) : Status := ⟨.wouldBlock, message⟩
def fault (message : String) : Status := ⟨.fault, message⟩
def notInitialized (message : String) : Status := ⟨.notInitialized, message⟩
def ioError (message : String) : Status := ⟨.ioError, message⟩
def notDirectory (message : String) : Status := ⟨.notDirectory, message⟩
def isDirectory (message : String) : Status := ⟨.isDirectory, message⟩
def notEmpty (message : String) : Status := ⟨.notEmpty, message⟩
def tooManySymlinks (message : String) : Status := ⟨.tooManySymlinks, message⟩
def nameTooLong (message : String) : Status := ⟨.nameTooLong, message⟩
def crossDevice (message : String) : Status := ⟨.crossDevice, message⟩
def linkLimit (message : String) : Status := ⟨.linkLimit, message⟩
def permission (message : String) : Status := ⟨.permission, message⟩
def badDescriptor (message : String) : Status := ⟨.badDescriptor, message⟩
def processFileLimit (message : String) : Status := ⟨.processFileLimit, message⟩
def systemFileLimit (message : String) : Status := ⟨.systemFileLimit, message⟩
def noProcess (message : String) : Status := ⟨.noProcess, message⟩

end Status

abbrev Result (α : Type) := Except Status α

end ObfuscationKernel.Core
