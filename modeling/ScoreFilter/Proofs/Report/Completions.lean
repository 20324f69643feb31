import ScoreFilter.Proofs.Ranking
import ScoreFilter.Report.Completions

namespace ScoreFilter

namespace Report

variable {color : Bool} {suggested more : List Suggestion}

end Report

end ScoreFilter
