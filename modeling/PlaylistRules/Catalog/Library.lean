import PlaylistRules.Catalog.Schema

/-!
# The media library

The schema of a media library: songs, the albums and artists they belong to, and the interactions
of users with songs.

## Main definitions

* `Catalog.library` : the schema.
-/

namespace PlaylistRules.Catalog

/-- The songs of the library. -/
def songs : Entity where
  name := "songs"
  identity := "id"
  columns :=
    [.required "id" .text, .required "album_id" .int, .required "artist_id" .int,
      .required "title" .text, .required "length" .float, .optional "track" .int,
      .optional "disc" .int, .optional "lyrics" .text, .required "path" .text,
      .required "mtime" .int, .optional "genre" .text, .optional "year" .int,
      .optional "bit_rate" .int, .required "created_at" .instant,
      .required "updated_at" .instant]

/-- The albums of the library. -/
def albums : Entity where
  name := "albums"
  identity := "id"
  columns :=
    [.required "id" .int, .required "artist_id" .int, .required "name" .text,
      .optional "cover" .text, .required "is_compilation" .bool,
      .required "created_at" .instant, .required "updated_at" .instant]

/-- The artists of the library. -/
def artists : Entity where
  name := "artists"
  identity := "id"
  columns :=
    [.required "id" .int, .required "name" .text, .optional "image" .text,
      .required "created_at" .instant, .required "updated_at" .instant]

/-- What users have done with songs. -/
def interactions : Entity where
  name := "interactions"
  identity := "id"
  columns :=
    [.required "id" .int, .required "user_id" .int, .required "song_id" .text,
      .required "liked" .bool, .required "play_count" .int,
      .optional "last_played_at" .instant, .required "created_at" .instant,
      .required "updated_at" .instant]

/-- The relations of the library, in the order of their declaration. -/
def libraryRelations : List Relation :=
  [.belongsTo "artist" "songs" "artist_id" "artists" "id",
    .belongsTo "album" "songs" "album_id" "albums" "id",
    .hasMany "interactions" "songs" "id" "interactions" "song_id",
    .belongsTo "artist" "albums" "artist_id" "artists" "id"]

/-- The schema of a media library. -/
def library : Schema :=
  libraryRelations.foldl Schema.withRelation
    ([songs, albums, artists, interactions].foldl Schema.withEntity (.empty 1))

/-- The entity of songs is the one on which playlists are based. -/
def defaultEntity : String := songs.name

end PlaylistRules.Catalog
