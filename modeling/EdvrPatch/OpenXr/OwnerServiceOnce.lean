import EdvrPatch.OpenXr.OwnerServiceRuns

/-! Completions and finalizers are counted in the record of a run: what the lives of the
requests say once it was read, it says of the record. -/
namespace EdvrPatch.OpenXr

open Lib

def completions (request : Nat) (log : List OwnerEvent) : Nat :=
  log.countP fun
    | .completed k _ => k == request
    | _ => false

variable {v : OwnerView}

variable {log : List OwnerEvent}

end EdvrPatch.OpenXr
