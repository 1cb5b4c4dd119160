import ModuleBundler.Json.Codec
import ModuleBundler.Path.Basic

/-!
# Paths in JSON
-/

namespace ModuleBundler
namespace Path

/-- A path stands in JSON as its text. -/
def codec : Json.Codec Path :=
  (Json.Codec.text "path string").iso Path.mk Path.text

end Path
end ModuleBundler
