/-
Module: DocStore.Definition.AnalyzerKind
Purpose: the kinds of text analyzers, with their words in definitions and in messages.
Main exports:
  AnalyzerKind, AnalyzerKind.word, AnalyzerKind.name, AnalyzerKind.words
-/

namespace DocStore

/-- The kinds of text analyzers. -/
inductive AnalyzerKind where
  | identity
  | delimiter
  | multiDelimiter
  | stem
  | norm
  | ngram
  | text
  | aql
  | pipeline
  | stopwords
  | collation
  | segmentation
  | minhash
  | classification
  | nearestNeighbors
  | geojson
  | geoS2
  | geopoint
  | wildcard
deriving DecidableEq, Repr, Inhabited

namespace AnalyzerKind

/-- All kinds. -/
def all : List AnalyzerKind :=
  [identity, delimiter, multiDelimiter, stem, norm, ngram, text, aql, pipeline, stopwords,
    collation, segmentation, minhash, classification, nearestNeighbors, geojson, geoS2, geopoint,
    wildcard]

/-- The word for a kind in a definition. -/
def word : AnalyzerKind → String
  | identity => "identity"
  | delimiter => "delimiter"
  | multiDelimiter => "multi_delimiter"
  | stem => "stem"
  | norm => "norm"
  | ngram => "ngram"
  | text => "text"
  | aql => "aql"
  | pipeline => "pipeline"
  | stopwords => "stopwords"
  | collation => "collation"
  | segmentation => "segmentation"
  | minhash => "minhash"
  | classification => "classification"
  | nearestNeighbors => "nearest_neighbors"
  | geojson => "geojson"
  | geoS2 => "geo_s2"
  | geopoint => "geopoint"
  | wildcard => "wildcard"

/-- The name of a kind in a message. -/
def name : AnalyzerKind → String
  | identity => "Identity"
  | delimiter => "Delimiter"
  | multiDelimiter => "MultiDelimiter"
  | stem => "Stem"
  | norm => "Norm"
  | ngram => "Ngram"
  | text => "Text"
  | aql => "Aql"
  | pipeline => "Pipeline"
  | stopwords => "Stopwords"
  | collation => "Collation"
  | segmentation => "Segmentation"
  | minhash => "Minhash"
  | classification => "Classification"
  | nearestNeighbors => "NearestNeighbors"
  | geojson => "Geojson"
  | geoS2 => "GeoS2"
  | geopoint => "Geopoint"
  | wildcard => "Wildcard"

/-- The kinds by their words. -/
def words : List (String × AnalyzerKind) :=
  all.map fun kind => (kind.word, kind)

end AnalyzerKind

end DocStore
