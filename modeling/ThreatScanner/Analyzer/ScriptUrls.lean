import ThreatScanner.Analyzer.Secrets
import ThreatScanner.Python.UrlJoin

/-!
# The scripts of a page

`extract_js_urls` takes the scripts and the links to scripts out of the text of a page and reads
them against its URL. `check_js_secrets` fetches these and no others. What a page names without a
scheme or an authority of its own is fetched from the host of the page.
-/

namespace ThreatScanner.Analyzer

open Pattern

section Sources
variable [UnicodeData]

variable {base html url : String} {src : List Char} {b u : ParseResult} {limit : ℕ}

end Sources

end ThreatScanner.Analyzer
