import NativeBindings.Proofs.OutputRoutes

/-!
# What becomes of files

A call that generates touches files in one place only, at its end, where the documents are written,
and so does a run of the command. By then the arguments are read, the description is loaded, and its
documents are made. If any of this fails, the tree of files is as it was.

A call that tells paths has written the documents, and that shows that they could be written. So
every place in the tree is accounted for: it is that of a document, or a directory that was missing
on the way to the documents, or it is as it was.

One thing that a description can be wrong about is found only then: there may be no bytes for one of
its documents. Where the directory can hold the documents, this is the one way to fail, and it
leaves files behind: those of the documents before that one, and an empty one.
-/

namespace NativeBindings.CommandLine

open Files

variable {t : Tree} {input directory : String} {o : Options}

/-! ## Calls -/

section Runs

variable {console : Console} {arguments : List String} {manner : Manner}

end Runs

end NativeBindings.CommandLine
