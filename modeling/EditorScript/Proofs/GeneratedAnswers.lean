import EditorScript.Proofs.Writable
import EditorScript.Service.Response

/-!
# Answers with generated sources

A document that can be read is answered with its source, unless an element that shows
up in the source has an endless limit where a whole number belongs.
-/

namespace EditorScript

open Response

end EditorScript
