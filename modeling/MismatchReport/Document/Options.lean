import MismatchReport.Json.Decoder
import MismatchReport.Json.Reader
import MismatchReport.Report.Options

/-!
# Documents: report options
-/

namespace MismatchReport.Document

open Json (Decoder)

def colorName : ColorMode → Text
  | .auto => "auto"
  | .always => "always"
  | .never => "never"

def encodeColor (color : ColorMode) : Json := .ofText (colorName color)

def decodeColor : Decoder ColorMode :=
  Decoder.named [("auto", .auto), ("always", .always), ("never", .never)]

def encodeOptions (options : Options) : Json :=
  .ofFields (Json.optionalField "width" Json.ofNat options.width ++
    Json.field "indent" (.ofText options.indent) ++
    Json.field "color" (encodeColor options.color))

def decodeOptions : Decoder Options := fun scope json => do
  let record ← Decoder.record ["width", "indent", "color"] scope json
  let width ← record.optional "width" Decoder.size
  let indent ← record.defaulted "indent" ({} : Options).indent Decoder.text
  let color ← record.defaulted "color" .auto decodeColor
  return { width, indent, color }

def readOptions? (text : Text) : Option Options :=
  (Json.parse? text).bind (decodeOptions Json.documentScope)

end MismatchReport.Document
