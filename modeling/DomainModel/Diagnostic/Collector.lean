import DomainModel.Diagnostic.Basic

namespace DomainModel

structure Collector where
  diagnostics : List Diagnostic := []
  hasErrors : Bool := false
  deriving DecidableEq

namespace Collector

def emit (c : Collector) (d : Diagnostic) : Collector :=
  { diagnostics := c.diagnostics ++ [d], hasErrors := c.hasErrors || d.severity.isError }

def emitAll (c : Collector) (ds : List Diagnostic) : Collector := ds.foldl emit c

end Collector

end DomainModel
